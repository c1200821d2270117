import AmstradCpc.Proofs.Z80.BlockPasses

/-!
# Block searches from the first pass to the last

A `CPIR` or `CPDR` that nothing disturbs compares one byte in each pass, and it ends with the first
byte that equals `A`, or where the count has come to zero. Memory tells beforehand which of the two
it is (`System.firstMatch`), and with it the number of passes, the registers and the flags at the end
(`System.steps_blockSearch`).
-/

namespace AmstradCpc.Z80

/-! ## Registers -/

namespace Registers

variable (d : Direction) (v : UInt8) (r : Registers)

theorem a_fetched : r.fetched.a = r.a := rfl

/-- Whether a search is over when it comes to the byte `v`: that is the byte to find, or the last
one. -/
def endsSearch (v : UInt8) (r : Registers) : Bool := r.bc - 1 == 0 || r.a == v

theorem endsSearch_fetched : r.fetched.endsSearch v = r.endsSearch v := rfl

theorem endsSearch_iff : r.endsSearch v = true ↔ r.bc - 1 = 0 ∨ r.a = v := by
  rw [endsSearch, Bool.or_eq_true, beq_iff_eq, beq_iff_eq]

/-- The registers after `CPIR` or `CPDR` has compared `A` with `v`: unless that ends the search, the
program counter is back on the instruction. -/
def afterCompare (d : Direction) (v : UInt8) (r : Registers) : Registers :=
  let compared := Extended.compareRegisters d v r
  if r.endsSearch v then compared else { compared with pc := compared.pc - 2, wz := compared.pc - 1 }

theorem bc_compareRegisters : (Extended.compareRegisters d v r).bc = r.bc - 1 := by
  simp [Extended.compareRegisters, setBC, bc]

theorem bc_afterCompare : (r.afterCompare d v).bc = r.bc - 1 := by
  unfold afterCompare
  dsimp only
  split <;> exact bc_compareRegisters d v r

theorem hl_afterCompare : (r.afterCompare d v).hl = d.step r.hl := by
  unfold afterCompare
  dsimp only
  split <;> simp [Extended.compareRegisters, setBC, setHL, hl]

theorem a_afterCompare : (r.afterCompare d v).a = r.a := by
  unfold afterCompare
  dsimp only
  split <;> rfl

theorem pc_afterCompare :
    (r.afterCompare d v).pc = if r.endsSearch v then r.pc else r.pc - 2 := by
  unfold afterCompare
  dsimp only
  split <;> rfl

theorem f_afterCompare : (r.afterCompare d v).f = (Extended.compareRegisters d v r).f := by
  unfold afterCompare
  dsimp only
  split <;> rfl

theorem carry_afterCompare :
    hasFlag (r.afterCompare d v).f Flag.carry = hasFlag r.f Flag.carry := by
  simp (disch := decide) [f_afterCompare, Extended.compareRegisters, setBC, setHL, hasFlag_or,
    hasFlag_flagIf, hasFlag_blockXY, hasFlag_mask_own, hasFlag_mask_apart, hasFlag_apart]

theorem subtract_afterCompare : hasFlag (r.afterCompare d v).f Flag.subtract = true := by
  simp (disch := decide) [f_afterCompare, Extended.compareRegisters, hasFlag_or, hasFlag_own]

theorem zero_afterCompare : hasFlag (r.afterCompare d v).f Flag.zero = (r.a == v) := by
  have hdifference : (r.a - v == 0) = (r.a == v) := by
    rw [Bool.eq_iff_iff, beq_iff_eq, beq_iff_eq, UInt8.sub_eq_iff_eq_add, UInt8.zero_add]
  simp (disch := decide) [f_afterCompare, Extended.compareRegisters, hasFlag_or, hasFlag_flagIf,
    hasFlag_blockXY, hasFlag_mask_within, hasFlag_mask_apart, hasFlag_apart, zero_resultFlags,
    hdifference]

theorem parity_afterCompare :
    hasFlag (r.afterCompare d v).f Flag.parity = ((r.afterCompare d v).bc != 0) := by
  simp (disch := decide) [f_afterCompare, Extended.compareRegisters, bc_afterCompare, hasFlag_or,
    hasFlag_flagIf, hasFlag_blockXY, hasFlag_mask_apart, hasFlag_apart, hasFlag_own]

end Registers

section Compare

variable {β : Type} [Bus β] (hpure : Bus.PureReads β) {d : Direction} {s : System β}

include hpure

theorem Extended.blockCompare_repeated (d : Direction) (s : System β) :
    let v := Bus.peek s.bus s.regs.hl
    blockCompare d true s =
      (if s.regs.endsSearch v then 0 else jumpPenalty,
        s.mapRegs (Registers.afterCompare d v)) := by
  intro v
  have hbc : (s.mapRegs (compareRegisters d v)).regs.bc = s.regs.bc - 1 :=
    Registers.bc_compareRegisters d v s.regs
  have ha : (s.mapRegs (compareRegisters d v)).regs.a = s.regs.a := rfl
  have hmore : (true && s.regs.bc - 1 != 0 && s.regs.a != v) = !s.regs.endsSearch v := by
    rw [Registers.endsSearch, Bool.not_or, Bool.true_and]
    rfl
  simp only [blockCompare, System.read_of_pure hpure]
  rw [hbc, ha, hmore]
  cases hend : s.regs.endsSearch v with
  | true =>
    have hafter : s.regs.afterCompare d v = compareRegisters d v s.regs := if_pos hend
    exact congrArg (fun r => (0, ({ s with cpu.regs := r } : System β))) hafter.symm
  | false =>
    have hafter : s.regs.afterCompare d v =
        { compareRegisters d v s.regs with
          pc := (compareRegisters d v s.regs).pc - 2, wz := (compareRegisters d v s.regs).pc - 1 } :=
      if_neg (by simp [hend])
    exact congrArg (fun r => (jumpPenalty, ({ s with cpu.regs := r } : System β))) hafter.symm

end Compare

namespace System

variable {β : Type} [Bus β] {d : Direction} {s t : System β} {i : ℕ}

/-! ## The byte to find -/

/-- The number of bytes that a search can compare: a count of zero means all of memory. -/
def searchLength (s : System β) : ℕ := passCount 0x10000 s.regs.bc.toNat

/-- The first of these bytes that equals `A`, if one does. -/
def firstMatch (d : Direction) (s : System β) : Option ℕ :=
  (List.range s.searchLength).find? fun j => Bus.peek s.bus (d.moved j s.regs.hl) == s.regs.a

/-- How many bytes a search compares. -/
def searchPasses (d : Direction) (s : System β) : ℕ := (s.firstMatch d).elim s.searchLength (· + 1)

theorem firstMatch_eq_some {j : ℕ} (h : s.firstMatch d = some j) :
    s.searchPasses d = j + 1 ∧ j < s.searchLength ∧
      Bus.peek s.bus (d.moved j s.regs.hl) = s.regs.a ∧
      ∀ i < j, Bus.peek s.bus (d.moved i s.regs.hl) ≠ s.regs.a := by
  obtain ⟨hfound, hrange, hbefore⟩ := List.find?_range_eq_some.mp h
  refine ⟨?_, List.mem_range.mp hrange, beq_iff_eq.mp hfound, fun i hi => ?_⟩
  · rw [searchPasses, h]
    rfl
  · simpa using hbefore i hi

theorem firstMatch_eq_none (h : s.firstMatch d = none) :
    s.searchPasses d = s.searchLength ∧
      ∀ i < s.searchLength, Bus.peek s.bus (d.moved i s.regs.hl) ≠ s.regs.a := by
  refine ⟨?_, fun i hi => ?_⟩
  · rw [searchPasses, h]
    rfl
  · simpa using List.find?_range_eq_none.mp h i hi

theorem searchPasses_pos : 0 < s.searchPasses d := by
  cases h : s.firstMatch d with
  | none =>
    rw [(firstMatch_eq_none h).1]
    exact passCount_pos (by decide)
  | some j =>
    rw [(firstMatch_eq_some h).1]
    exact Nat.succ_pos j

theorem searchPasses_le : s.searchPasses d ≤ s.searchLength := by
  cases h : s.firstMatch d with
  | none => exact (firstMatch_eq_none h).1.le
  | some j =>
    obtain ⟨hpasses, hlt, -⟩ := firstMatch_eq_some h
    omega

-- Among the bytes that are compared, only the last one can be the one looked for.
theorem peek_eq_iff_firstMatch (hi : i < s.searchPasses d) :
    Bus.peek s.bus (d.moved i s.regs.hl) = s.regs.a ↔ s.firstMatch d = some i := by
  cases h : s.firstMatch d with
  | none =>
    obtain ⟨hpasses, hnot⟩ := firstMatch_eq_none h
    simpa using hnot i (hpasses ▸ hi)
  | some j =>
    obtain ⟨hpasses, -, hbyte, hbefore⟩ := firstMatch_eq_some h
    rw [Option.some_inj]
    refine ⟨fun heq => ?_, fun heq => heq ▸ hbyte⟩
    by_contra hne
    exact hbefore i (by omega) heq

theorem isLast_iff (hi : i < s.searchPasses d) :
    i + 1 = s.searchLength ∨ s.firstMatch d = some i ↔ i + 1 = s.searchPasses d := by
  cases h : s.firstMatch d with
  | none => simp [(firstMatch_eq_none h).1]
  | some j =>
    obtain ⟨hpasses, hlt, -⟩ := firstMatch_eq_some h
    rw [Option.some_inj]
    omega

/-! ## The passes -/

/-- What the passes of a search leave alone, and how far `i` of them have come. -/
structure Compared (d : Direction) (s : System β) (i : ℕ) (t : System β) : Prop where
  undisturbed : t.Undisturbed
  bus : t.bus = s.bus
  a : t.regs.a = s.regs.a
  carry : hasFlag t.regs.f Flag.carry = hasFlag s.regs.f Flag.carry
  hl : t.regs.hl = d.moved i s.regs.hl
  bc : t.regs.bc = s.regs.bc - .ofNat i

/-- The search goes on after `i` passes. -/
structure Searching (d : Direction) (s : System β) (i : ℕ) (t : System β) : Prop
    extends Compared d s i t where
  pc : t.regs.pc = s.regs.pc

/-- What a search leaves after `m` bytes. -/
structure Searched (d : Direction) (s : System β) (m : ℕ) (t : System β) : Prop where
  pc : t.regs.pc = s.regs.pc + 2
  hl : t.regs.hl = d.moved m s.regs.hl
  bc : t.regs.bc = .ofNat (s.searchLength - m)
  zero : hasFlag t.regs.f Flag.zero = (s.firstMatch d).isSome
  parity : hasFlag t.regs.f Flag.parity = (t.regs.bc != 0)
  subtract : hasFlag t.regs.f Flag.subtract = true
  carry : hasFlag t.regs.f Flag.carry = hasFlag s.regs.f Flag.carry
  bus : t.bus = s.bus

theorem Repeating.step_compare (hpure : Bus.PureReads β) (h : Repeating .compare d s) :
    let v := Bus.peek s.bus s.regs.hl
    s.step.2.regs = s.regs.fetched.fetched.afterCompare d v ∧ s.step.2.bus = s.bus ∧
      s.step.1 = if s.regs.endsSearch v then 16 else 21 := by
  have hpass := Extended.blockCompare_repeated hpure d s.atExtended
  simp only [regs_atExtended, bus_atExtended, Registers.hl_fetched,
    Registers.endsSearch_fetched] at hpass
  have hstep := h.step_eq hpure
  simp only [Extended.exec, hpass] at hstep
  rw [hstep]
  refine ⟨rfl, rfl, ?_⟩
  show 16 + (if s.regs.endsSearch (Bus.peek s.bus s.regs.hl) then 0 else jumpPenalty) = _
  split <;> rfl

/-! ## The run -/

theorem Repeating.searching (h : Repeating .compare d s) : Searching d s 0 s where
  undisturbed := h.toUndisturbed
  bus := rfl
  a := rfl
  carry := rfl
  pc := rfl
  hl := (d.moved_zero _).symm
  bc := (UInt16.sub_zero _).symm

section Searching

variable (hpure : Bus.PureReads β) (h : Repeating .compare d s) (ht : Searching d s i t)

include ht

theorem Searching.endsSearch_iff (hi : i < s.searchPasses d) :
    t.regs.endsSearch (Bus.peek t.bus t.regs.hl) = true ↔ i + 1 = s.searchPasses d := by
  have hcount : t.regs.bc - 1 = s.regs.bc - .ofNat (i + 1) := by
    rw [ht.bc, UInt16.sub_ofNat_sub_one]
  have hle : i + 1 ≤ s.searchLength := hi.trans_le searchPasses_le
  rw [Registers.endsSearch_iff, hcount, UInt16.sub_ofNat_eq_zero_iff _ (Nat.succ_pos i) hle, ht.a,
    ht.bus, ht.hl, eq_comm (a := s.regs.a), peek_eq_iff_firstMatch hi]
  exact isLast_iff hi

include h

theorem Searching.repeating : Repeating .compare d t where
  toUndisturbed := ht.undisturbed
  first := by rw [ht.bus, ht.pc, h.first]
  second := by rw [ht.bus, ht.pc, h.second]

include hpure

theorem Searching.compared : Compared d s (i + 1) t.step.2 := by
  have hrepeating := ht.repeating h
  obtain ⟨hregs, hbus, -⟩ := hrepeating.step_compare hpure
  exact
    { undisturbed := hrepeating.undisturbed_step hpure
      bus := hbus.trans ht.bus
      a := by
        rw [hregs, Registers.a_afterCompare, Registers.a_fetched, Registers.a_fetched, ht.a]
      carry := by
        rw [hregs, Registers.carry_afterCompare, Registers.f_fetched, Registers.f_fetched, ht.carry]
      hl := by
        rw [hregs, Registers.hl_afterCompare, Registers.hl_fetched, Registers.hl_fetched, ht.hl,
          d.step_moved]
      bc := by
        rw [hregs, Registers.bc_afterCompare, Registers.bc_fetched, Registers.bc_fetched, ht.bc,
          UInt16.sub_ofNat_sub_one] }

theorem Searching.pc_step : t.step.2.regs.pc =
    if t.regs.endsSearch (Bus.peek t.bus t.regs.hl) then s.regs.pc + 2 else s.regs.pc := by
  rw [((ht.repeating h).step_compare hpure).1, Registers.pc_afterCompare, Registers.pc_rewound,
    Registers.pc_fetched_fetched, Registers.endsSearch_fetched, Registers.endsSearch_fetched, ht.pc]

theorem Searching.next (hi : i + 1 < s.searchPasses d) :
    t.step.1 = 21 ∧ Searching d s (i + 1) t.step.2 := by
  have hmore : ¬t.regs.endsSearch (Bus.peek t.bus t.regs.hl) = true := by
    rw [ht.endsSearch_iff (Nat.lt_of_succ_lt hi)]
    exact hi.ne
  refine ⟨?_, ht.compared hpure h, ?_⟩
  · rw [((ht.repeating h).step_compare hpure).2.2, if_neg hmore]
  · rw [ht.pc_step hpure h, if_neg hmore]

theorem Searching.last (hi : i + 1 = s.searchPasses d) :
    t.step.1 = 16 ∧ Searched d s (i + 1) t.step.2 := by
  have hlt : i < s.searchPasses d := Nat.lt_of_succ_le hi.le
  have hend : t.regs.endsSearch (Bus.peek t.bus t.regs.hl) = true := (ht.endsSearch_iff hlt).mpr hi
  obtain ⟨hregs, hbus, hcost⟩ := (ht.repeating h).step_compare hpure
  have hcompared := ht.compared hpure h
  -- the last byte is the one to find, or no byte is
  have hzero : (t.regs.a == Bus.peek t.bus t.regs.hl) = (s.firstMatch d).isSome := by
    rw [Bool.eq_iff_iff, beq_iff_eq, Option.isSome_iff_exists, ht.a, ht.bus, ht.hl, eq_comm,
      peek_eq_iff_firstMatch hlt]
    refine ⟨fun hfirst => ⟨i, hfirst⟩, fun ⟨j, hj⟩ => ?_⟩
    obtain ⟨hpasses, -⟩ := firstMatch_eq_some hj
    rw [hj, show j = i by omega]
  refine ⟨by rw [hcost, if_pos hend], ?_⟩
  exact
    { pc := by rw [ht.pc_step hpure h, if_pos hend]
      hl := hcompared.hl
      bc := hcompared.bc.trans (UInt16.sub_ofNat_eq _ (hi.le.trans searchPasses_le))
      zero := by
        rw [hregs, Registers.zero_afterCompare, Registers.a_fetched, Registers.a_fetched, hzero]
      parity := by rw [hregs, Registers.parity_afterCompare]
      subtract := by rw [hregs, Registers.subtract_afterCompare]
      carry := hcompared.carry
      bus := hbus.trans ht.bus }

end Searching

/-- `CPIR` and `CPDR` end with the first byte that equals `A`, or with the last one, and tell which
of the two it was. -/
theorem steps_blockSearch (hpure : Bus.PureReads β) (h : Repeating .compare d s) :
    let m := s.searchPasses d
    (∀ i < m, (steps i s).2.regs.pc = s.regs.pc) ∧ Searched d s m (steps m s).2 ∧
      (steps m s).1 = 21 * (m - 1) + 16 := by
  obtain ⟨n, hn⟩ := Nat.exists_eq_add_one_of_ne_zero (searchPasses_pos (d := d) (s := s)).ne'
  have hpasses := steps_of_passes h.searching fun i t hi ht => ht.next hpure h hi
  obtain ⟨hbefore, hcost⟩ := hpasses n (hn ▸ Nat.lt_succ_self n)
  obtain ⟨hlast, hsearched⟩ := hbefore.last hpure h hn.symm
  intro m
  refine ⟨fun i hi => (hpasses i hi).1.pc, ?_⟩
  rw [show m = n + 1 from hn, steps_succ]
  refine ⟨hsearched, ?_⟩
  show (steps n s).1 + (steps n s).2.step.1 = 21 * (n + 1 - 1) + 16
  rw [hcost, hlast, Nat.add_sub_cancel]

/-- A `CPIR` of the last byte of memory and the first one, which is the byte to find. -/
def wrapping : System FlatBus where
  cpu := { regs := { pc := 0x4000, a := 7, c := 2, h := 0xFF, l := 0xFF, f := 0xFF } }
  bus := { memory := ((FlatMemory.zeros.write 0x4000 0xED).write 0x4001 0xB1).write 0 7 }

theorem peek_wrapping (a : UInt16) : Bus.peek wrapping.bus a =
    if 0 = a then 7 else if 0x4001 = a then 0xB1 else if 0x4000 = a then 0xED else 0 := by
  show (((FlatMemory.zeros.write 0x4000 0xED).write 0x4001 0xB1).write 0 7).read a = _
  simp only [FlatMemory.read_write, FlatMemory.read_zeros]

-- The match is on the last byte, so zero is set and parity is clear.
theorem steps_blockSearch_wrapping :
    Repeating .compare .up wrapping ∧ (steps 2 wrapping).1 = 37 ∧
      (steps 2 wrapping).2.regs.pc = 0x4002 ∧ (steps 2 wrapping).2.regs.hl = 1 ∧
      hasFlag (steps 2 wrapping).2.regs.f Flag.zero = true ∧
      hasFlag (steps 2 wrapping).2.regs.f Flag.parity = false := by
  have hpc : wrapping.regs.pc = 0x4000 := rfl
  have hhl : wrapping.regs.hl = 0xFFFF := by decide
  have hlength : wrapping.searchLength = 2 := by decide
  have hmatch : wrapping.firstMatch .up = some 1 := by
    simp only [firstMatch, hlength, peek_wrapping, hhl]
    decide
  have hpasses : wrapping.searchPasses .up = 2 := by
    rw [searchPasses, hmatch]
    rfl
  have hrepeating : Repeating .compare .up wrapping :=
    { intPending := rfl
      nmiPending := rfl
      running := rfl
      first := by rw [hpc, peek_wrapping]; rfl
      second := by rw [hpc, peek_wrapping]; rfl }
  obtain ⟨-, hsearched, hcost⟩ := steps_blockSearch FlatBus.pureReads hrepeating
  rw [hpasses] at hsearched hcost
  refine ⟨hrepeating, hcost, hsearched.pc, ?_, ?_, ?_⟩
  · rw [hsearched.hl, hhl]
    rfl
  · rw [hsearched.zero, hmatch]
    rfl
  · rw [hsearched.parity, hsearched.bc, hlength]
    rfl

end System

end AmstradCpc.Z80
