import AmstradCpc.Proofs.Z80.BlockPasses

/-!
# Block transfers from the first pass to the last

A pass of `OTIR` or `OTDR` sends a byte to a port, and one of `INIR` or `INDR` takes one. `B` counts
the passes and is the high half of the port as well, and the two differ in when they count: an output
goes to the port of the new count, an input comes from that of the old one. On a bus whose ports
leave memory alone the whole transfer is the port accesses in order, whatever the ports answer
(`System.steps_blockTransfer`).
-/

namespace AmstradCpc.Z80

/-! ## The bus of a transfer -/

theorem Direction.moved_inj (d : Direction) {a : UInt16} {i j : ℕ} (hi : i < 0x10000)
    (hj : j < 0x10000) (h : d.moved i a = d.moved j a) : i = j := by
  have hword : UInt16.ofNat i = .ofNat j := by
    cases d with
    | up => exact (UInt16.add_right_inj a).mp h
    | down => exact (UInt16.sub_right_inj a).mp h
  have hnat := congrArg UInt16.toNat hword
  rwa [UInt16.toNat_ofNat_of_lt' hi, UInt16.toNat_ofNat_of_lt' hj] at hnat

/-- All of memory is RAM: a byte is the last one written there, and ports do not change it. -/
structure Bus.IsRam (β : Type) [Bus β] : Prop where
  pureReads : Bus.PureReads β
  peek_write (a : UInt16) (v : UInt8) (bus : β) (c : UInt16) :
    Bus.peek (Bus.write a v bus) c = if a = c then v else Bus.peek bus c
  peek_input (port : UInt16) (bus : β) (c : UInt16) :
    Bus.peek (Bus.input port bus).2 c = Bus.peek bus c
  peek_output (port : UInt16) (v : UInt8) (bus : β) (c : UInt16) :
    Bus.peek (Bus.output port v bus) c = Bus.peek bus c

theorem FlatBus.isRam : Bus.IsRam FlatBus where
  pureReads := FlatBus.pureReads
  peek_write a v bus c := FlatBus.peek_write bus a c v
  peek_input _ _ _ := rfl
  peek_output _ _ _ _ := rfl

section Bus

variable {β : Type} [Bus β] (d : Direction) (b c : UInt8) (a : UInt16) (bus : β)

/-- Sends the byte at `a`. The count before the pass is `b`. -/
def Bus.send (c b : UInt8) (a : UInt16) (bus : β) : β :=
  Bus.output (word (b - 1) c) (Bus.peek bus a) bus

/-- Takes a byte to `a`. The count before the pass is `b`. -/
def Bus.take (c b : UInt8) (a : UInt16) (bus : β) : β :=
  let (v, bus) := Bus.input (word b c) bus
  Bus.write a v bus

/-- The bus after `n` accesses, one for each count from `b` down and each address from `a` on. -/
def Bus.accessed (access : UInt8 → UInt16 → β → β) (d : Direction) (b : UInt8) (a : UInt16)
    (bus : β) (n : ℕ) : β :=
  (List.range n).foldl (fun bus i => access (b - .ofNat i) (d.moved i a) bus) bus

/-- The bus after `n` bytes of memory have been sent in order. -/
def Bus.sent (d : Direction) (b c : UInt8) (a : UInt16) (bus : β) (n : ℕ) : β :=
  (List.range n).foldl
    (fun out i => Bus.output (word (b - 1 - .ofNat i) c) (Bus.peek bus (d.moved i a)) out) bus

/-- The bus after `n` bytes have been taken to memory in order. -/
def Bus.taken (d : Direction) (b c : UInt8) (a : UInt16) (bus : β) (n : ℕ) : β :=
  (List.range n).foldl
    (fun bus i =>
      let (v, bus) := Bus.input (word (b - .ofNat i) c) bus
      Bus.write (d.moved i a) v bus) bus

omit [Bus β] in
theorem Bus.accessed_succ (access : UInt8 → UInt16 → β → β) (n : ℕ) :
    accessed access d b a bus (n + 1) =
      access (b - .ofNat n) (d.moved n a) (accessed access d b a bus n) := by
  rw [accessed, List.range_succ, List.foldl_append]
  rfl

theorem Bus.sent_succ (n : ℕ) :
    sent d b c a bus (n + 1) =
      Bus.output (word (b - 1 - .ofNat n) c) (Bus.peek bus (d.moved n a)) (sent d b c a bus n) := by
  rw [sent, List.range_succ, List.foldl_append]
  rfl

theorem Bus.taken_eq_accessed (n : ℕ) :
    taken d b c a bus n = accessed (Bus.take c) d b a bus n := rfl

variable (hram : Bus.IsRam β)

include hram

theorem Bus.peek_sent (n : ℕ) (x : UInt16) : Bus.peek (sent d b c a bus n) x = Bus.peek bus x := by
  induction n with
  | zero => rfl
  | succ n ih => rw [sent_succ, hram.peek_output, ih]

-- Sending changes no byte that is still to be sent.
theorem Bus.accessed_send (n : ℕ) :
    accessed (Bus.send c) d b a bus n = sent d b c a bus n := by
  induction n with
  | zero => rfl
  | succ n ih =>
    have hcount : b - .ofNat n - 1 = b - 1 - .ofNat n := by grind
    rw [accessed_succ, sent_succ, ih, Bus.send, peek_sent d b c a bus hram, hcount]

theorem Bus.peek_taken {n : ℕ} {x : UInt16} (hx : ∀ i < n, d.moved i a ≠ x) :
    Bus.peek (taken d b c a bus n) x = Bus.peek bus x := by
  induction n with
  | zero => rfl
  | succ n ih =>
    rw [taken_eq_accessed, accessed_succ, Bus.take, hram.peek_write, if_neg (hx n (by omega)),
      hram.peek_input]
    exact ih fun i hi => hx i (by omega)

-- No two of the addresses are the same, so a byte stays where it has been taken to.
theorem Bus.peek_taken_moved {n i : ℕ} (hn : n ≤ 0x100) (hi : i < n) :
    Bus.peek (taken d b c a bus n) (d.moved i a) =
      (Bus.input (word (b - .ofNat i) c) (taken d b c a bus i)).1 := by
  induction n with
  | zero => exact absurd hi (Nat.not_lt_zero i)
  | succ n ih =>
    rw [taken_eq_accessed, accessed_succ, Bus.take, hram.peek_write]
    obtain hlt | rfl := Nat.lt_succ_iff_lt_or_eq.mp hi
    · have hapart : d.moved n a ≠ d.moved i a := fun h =>
        hlt.ne' (d.moved_inj (by omega) (by omega) h)
      rw [if_neg hapart, hram.peek_input]
      exact ih (by omega) hlt
    · rw [if_pos rfl]
      rfl

end Bus

/-! ## Registers -/

theorem zero_transferFlags (b v addend : UInt8) :
    hasFlag (Extended.transferFlags b v addend) Flag.zero = (b == 0) := by
  simp (disch := decide) [Extended.transferFlags, hasFlag_or, hasFlag_flagIf, hasFlag_apart,
    zero_resultFlags]

theorem Registers.b_fetched (r : Registers) : r.fetched.b = r.b := rfl

theorem Registers.c_fetched (r : Registers) : r.fetched.c = r.c := rfl

/-- What a pass makes of the registers: one off the count, the pointer moved, and the program
counter back on the instruction unless the count is zero. -/
structure Registers.Transferred (d : Direction) (r r' : Registers) : Prop where
  b : r'.b = r.b - 1
  c : r'.c = r.c
  hl : r'.hl = d.step r.hl
  zero : hasFlag r'.f Flag.zero = (r.b - 1 == 0)
  pc : r'.pc = if r.b - 1 = 0 then r.pc else r.pc - 2

/-! ## Passes -/

namespace Extended

variable {β : Type} {access : UInt8 → UInt16 → β → β} {d : Direction} {s t : System β}

/-- What a pass of a transfer does behind the bytes of the instruction. -/
structure Transfers (access : UInt8 → UInt16 → β → β) (d : Direction) (s : System β)
    (pass : ℕ × System β) : Prop where
  regs : s.regs.Transferred d pass.2.regs
  bus : pass.2.bus = access s.regs.b s.regs.hl s.bus
  cost : pass.1 = if s.regs.b - 1 = 0 then 0 else jumpPenalty

-- Both instructions end with the same look at the count.
theorem transfers_of_counted (hb : t.regs.b = s.regs.b - 1) (hc : t.regs.c = s.regs.c)
    (hhl : t.regs.hl = d.step s.regs.hl)
    (hzero : hasFlag t.regs.f Flag.zero = (s.regs.b - 1 == 0)) (hpc : t.regs.pc = s.regs.pc)
    (hbus : t.bus = access s.regs.b s.regs.hl s.bus) :
    Transfers access d s
      (if true && t.regs.b != 0 then (jumpPenalty, t.mapRegs rewind) else (0, t)) := by
  rw [Bool.true_and, hb]
  by_cases hlast : s.regs.b - 1 = 0
  · have hstop : ¬(s.regs.b - 1 != 0) = true := by simp [hlast]
    rw [if_neg hstop]
    exact ⟨⟨hb, hc, hhl, hzero, by rw [if_pos hlast, hpc]⟩, hbus, (if_pos hlast).symm⟩
  · have hmore : (s.regs.b - 1 != 0) = true := bne_iff_ne.mpr hlast
    have hback : (t.mapRegs rewind).regs.pc = t.regs.pc - 2 := rfl
    rw [if_pos hmore]
    exact ⟨⟨hb, hc, hhl, hzero, by rw [if_neg hlast, hback, hpc]⟩, hbus, (if_neg hlast).symm⟩

theorem transfers_blockOutput [Bus β] (hpure : Bus.PureReads β) (d : Direction) (s : System β) :
    Transfers (Bus.send s.regs.c) d s (blockOutput d true s) := by
  unfold blockOutput
  rw [System.read_of_pure hpure]
  exact transfers_of_counted rfl rfl (word_hiByte_loByte (d.step s.regs.hl))
    (zero_transferFlags _ _ _) rfl rfl

theorem transfers_blockInput [Bus β] (d : Direction) (s : System β) :
    Transfers (Bus.take s.regs.c) d s (blockInput d true s) := by
  unfold blockInput
  exact transfers_of_counted rfl rfl (word_hiByte_loByte (d.step s.regs.hl))
    (zero_transferFlags _ _ _) rfl rfl

end Extended

namespace System

variable {β : Type} [Bus β] {op : BlockOp} {access : UInt8 → UInt16 → β → β} {d : Direction}
  {s t : System β} {i : ℕ}

/-- What a step does that is a pass of a transfer. -/
structure Passes (access : UInt8 → UInt16 → β → β) (d : Direction) (s : System β) : Prop where
  regs : s.regs.fetched.fetched.Transferred d s.step.2.regs
  bus : s.step.2.bus = access s.regs.b s.regs.hl s.bus
  cost : s.step.1 = if s.regs.b - 1 = 0 then 16 else 21

theorem Repeating.passes (hpure : Bus.PureReads β) (h : Repeating op d s)
    (hpass : Extended.Transfers access d s.atExtended
      ((Extended.block op d true).exec (op.repeated d) s.atExtended)) : s.Passes access d := by
  obtain ⟨hregs, hbus, hcost⟩ := hpass
  have hb : s.atExtended.regs.b = s.regs.b := rfl
  rw [hb] at hcost
  have hstep := h.step_eq hpure
  refine ⟨?_, ?_, ?_⟩
  · rw [hstep]
    exact hregs
  · rw [hstep]
    exact hbus
  · rw [hstep]
    dsimp only
    rw [hcost]
    split <;> rfl

theorem Repeating.passes_output (hpure : Bus.PureReads β) (h : Repeating .output d s) :
    s.Passes (Bus.send s.regs.c) d :=
  h.passes hpure (Extended.transfers_blockOutput hpure d s.atExtended)

theorem Repeating.passes_input (hpure : Bus.PureReads β) (h : Repeating .input d s) :
    s.Passes (Bus.take s.regs.c) d :=
  h.passes hpure (Extended.transfers_blockInput d s.atExtended)

/-! ## Runs -/

/-- The number of bytes to transfer: a count of zero means 256. -/
def transferLength (s : System β) : ℕ := passCount 0x100 s.regs.b.toNat

/-- A transfer is about to run whose passes do not change the instruction. -/
structure Transferring (op : BlockOp) (access : UInt8 → UInt16 → β → β) (d : Direction)
    (s : System β) : Prop extends Repeating op d s where
  passes : ∀ t : System β, Repeating op d t → t.regs.c = s.regs.c → t.Passes access d
  code : ∀ i < s.transferLength,
    Bus.peek (Bus.accessed access d s.regs.b s.regs.hl s.bus i) s.regs.pc = 0xED ∧
      Bus.peek (Bus.accessed access d s.regs.b s.regs.hl s.bus i) (s.regs.pc + 1) = op.repeated d

/-- How far `i` passes of a transfer have come. -/
structure Counted (access : UInt8 → UInt16 → β → β) (d : Direction) (s : System β) (i : ℕ)
    (t : System β) : Prop where
  undisturbed : t.Undisturbed
  b : t.regs.b = s.regs.b - .ofNat i
  c : t.regs.c = s.regs.c
  hl : t.regs.hl = d.moved i s.regs.hl
  bus : t.bus = Bus.accessed access d s.regs.b s.regs.hl s.bus i

/-- The transfer goes on after `i` passes. -/
structure Continuing (access : UInt8 → UInt16 → β → β) (d : Direction) (s : System β) (i : ℕ)
    (t : System β) : Prop extends Counted access d s i t where
  pc : t.regs.pc = s.regs.pc

/-- What the run of a transfer comes to that leaves the bus `bus`. -/
structure TransferRun (d : Direction) (s : System β) (bus : β) : Prop where
  before : ∀ i < s.transferLength, (steps i s).2.regs.pc = s.regs.pc
  pc : (steps s.transferLength s).2.regs.pc = s.regs.pc + 2
  b : (steps s.transferLength s).2.regs.b = 0
  c : (steps s.transferLength s).2.regs.c = s.regs.c
  hl : (steps s.transferLength s).2.regs.hl = d.moved s.transferLength s.regs.hl
  zero : hasFlag (steps s.transferLength s).2.regs.f Flag.zero = true
  bus : (steps s.transferLength s).2.bus = bus
  cost : (steps s.transferLength s).1 = 21 * (s.transferLength - 1) + 16

theorem Transferring.continuing (h : Transferring op access d s) : Continuing access d s 0 s where
  undisturbed := h.toUndisturbed
  b := (UInt8.sub_zero _).symm
  c := rfl
  hl := (d.moved_zero _).symm
  bus := rfl
  pc := rfl

section Continuing

variable (hpure : Bus.PureReads β) (h : Transferring op access d s)
  (ht : Continuing access d s i t) (hi : i < s.transferLength)

include h ht hi

theorem Continuing.repeating : Repeating op d t where
  toUndisturbed := ht.undisturbed
  first := by rw [ht.bus, ht.pc, (h.code i hi).1]
  second := by rw [ht.bus, ht.pc, (h.code i hi).2]

theorem Continuing.passes : t.Passes access d := h.passes t (ht.repeating h hi) ht.c

omit [Bus β] h in
theorem Continuing.isLast_iff : t.regs.b - 1 = 0 ↔ i + 1 = s.transferLength := by
  rw [ht.b, UInt8.sub_ofNat_sub_one]
  exact UInt8.sub_ofNat_eq_zero_iff _ (Nat.succ_pos i) hi

include hpure

theorem Continuing.counted : Counted access d s (i + 1) t.step.2 := by
  obtain ⟨hregs, hbus, -⟩ := ht.passes h hi
  exact
    { undisturbed := (ht.repeating h hi).undisturbed_step hpure
      b := by
        rw [hregs.b, Registers.b_fetched, Registers.b_fetched, ht.b, UInt8.sub_ofNat_sub_one]
      c := by rw [hregs.c, Registers.c_fetched, Registers.c_fetched, ht.c]
      hl := by rw [hregs.hl, Registers.hl_fetched, Registers.hl_fetched, ht.hl, d.step_moved]
      bus := by rw [hbus, Bus.accessed_succ, ht.b, ht.hl, ht.bus] }

omit hpure in
theorem Continuing.pc_step :
    t.step.2.regs.pc = if t.regs.b - 1 = 0 then s.regs.pc + 2 else s.regs.pc := by
  rw [(ht.passes h hi).regs.pc, Registers.pc_rewound, Registers.pc_fetched_fetched,
    Registers.b_fetched, Registers.b_fetched, ht.pc]

end Continuing

theorem Continuing.next (hpure : Bus.PureReads β) (h : Transferring op access d s)
    (ht : Continuing access d s i t) (hi : i + 1 < s.transferLength) :
    t.step.1 = 21 ∧ Continuing access d s (i + 1) t.step.2 := by
  have hnow : i < s.transferLength := Nat.lt_of_succ_lt hi
  have hmore : t.regs.b - 1 ≠ 0 := (ht.isLast_iff hnow).not.mpr hi.ne
  refine ⟨?_, ht.counted hpure h hnow, ?_⟩
  · rw [(ht.passes h hnow).cost, if_neg hmore]
  · rw [ht.pc_step h hnow, if_neg hmore]

/-- A transfer takes a step for each byte and leaves the instruction with the last. -/
theorem Transferring.run (hpure : Bus.PureReads β) (h : Transferring op access d s) :
    TransferRun d s (Bus.accessed access d s.regs.b s.regs.hl s.bus s.transferLength) := by
  have hpos : 0 < s.transferLength := passCount_pos (by decide)
  obtain ⟨n, hn⟩ := Nat.exists_eq_add_one_of_ne_zero hpos.ne'
  have hpasses := steps_of_passes h.continuing fun i t hi ht => ht.next hpure h hi
  have hnow : n < s.transferLength := hn ▸ Nat.lt_succ_self n
  obtain ⟨hbefore, hcost⟩ := hpasses n hnow
  have hlast : (steps n s).2.regs.b - 1 = 0 := (hbefore.isLast_iff hnow).mpr hn.symm
  have hpass := hbefore.passes h hnow
  have hcounted := hbefore.counted hpure h hnow
  have hzero : hasFlag (steps n s).2.step.2.regs.f Flag.zero = true := by
    rw [hpass.regs.zero, Registers.b_fetched, Registers.b_fetched, hlast]
    rfl
  have hstep : (steps s.transferLength s).2 = (steps n s).2.step.2 := by rw [hn, steps_succ]
  rw [← hn] at hcounted
  exact
    { before := fun i hi => (hpasses i hi).1.pc
      pc := by rw [hstep, hbefore.pc_step h hnow, if_pos hlast]
      b := by rw [hstep, hpass.regs.b, Registers.b_fetched, Registers.b_fetched, hlast]
      c := by rw [hstep, hcounted.c]
      hl := by rw [hstep, hcounted.hl]
      zero := by rw [hstep, hzero]
      bus := by rw [hstep, hcounted.bus]
      cost := by
        rw [hn, steps_succ]
        show (steps n s).1 + (steps n s).2.step.1 = 21 * n + 16
        rw [hcost, hpass.cost, if_pos hlast] }

theorem Repeating.transferring_output (hram : Bus.IsRam β) (h : Repeating .output d s) :
    Transferring .output (Bus.send s.regs.c) d s where
  toRepeating := h
  passes t ht hc := hc ▸ ht.passes_output hram.pureReads
  code i _ := by
    rw [Bus.accessed_send _ _ _ _ _ hram, Bus.peek_sent _ _ _ _ _ hram,
      Bus.peek_sent _ _ _ _ _ hram]
    exact ⟨h.first, h.second⟩

theorem Repeating.transferring_input (hram : Bus.IsRam β) (h : Repeating .input d s)
    (hapart : ∀ i < s.transferLength,
      d.moved i s.regs.hl ≠ s.regs.pc ∧ d.moved i s.regs.hl ≠ s.regs.pc + 1) :
    Transferring .input (Bus.take s.regs.c) d s where
  toRepeating := h
  passes t ht hc := hc ▸ ht.passes_input hram.pureReads
  code i hi := by
    rw [← Bus.taken_eq_accessed,
      Bus.peek_taken _ _ _ _ _ hram fun j hj => (hapart j (hj.trans hi)).1,
      Bus.peek_taken _ _ _ _ _ hram fun j hj => (hapart j (hj.trans hi)).2]
    exact ⟨h.first, h.second⟩

/-- `OTIR` and `OTDR` do nothing to the bus but send the bytes in order, each to the port of the
count after it, and `INIR` and `INDR` nothing but take as many, each from the port of the count
before it. The latter must not store a byte in the instruction itself. -/
theorem steps_blockTransfer (hram : Bus.IsRam β) (d : Direction) (s : System β) :
    let n := s.transferLength
    (Repeating .output d s →
      TransferRun d s (Bus.sent d s.regs.b s.regs.c s.regs.hl s.bus n)) ∧
    (Repeating .input d s →
      (∀ i < n, d.moved i s.regs.hl ≠ s.regs.pc ∧ d.moved i s.regs.hl ≠ s.regs.pc + 1) →
      TransferRun d s (Bus.taken d s.regs.b s.regs.c s.regs.hl s.bus n) ∧
        ∀ i < n, Bus.peek (steps n s).2.bus (d.moved i s.regs.hl) =
          (Bus.input (word (s.regs.b - .ofNat i) s.regs.c)
            (Bus.taken d s.regs.b s.regs.c s.regs.hl s.bus i)).1) := by
  intro n
  refine ⟨fun h => ?_, fun h hapart => ?_⟩
  · rw [← Bus.accessed_send _ _ _ _ _ hram]
    exact (h.transferring_output hram).run hram.pureReads
  · have hrun := (h.transferring_input hram hapart).run hram.pureReads
    rw [← Bus.taken_eq_accessed] at hrun
    refine ⟨hrun, fun i hi => ?_⟩
    rw [hrun.bus]
    exact Bus.peek_taken_moved _ _ _ _ _ hram (passCount_le s.regs.b.toNat_lt) hi

/-- An `OTIR` of the last byte of memory and the first one. -/
def sending : System FlatBus where
  cpu := { regs := { pc := 0x4000, b := 2, c := 0x7F, h := 0xFF, l := 0xFF } }
  bus := { memory :=
    (((FlatMemory.zeros.write 0x4000 0xED).write 0x4001 0xB3).write 0xFFFF 5).write 0 6 }

/-- An `INDR` of 256 bytes from ports that answer with the high half of their address. -/
def taking : System FlatBus where
  cpu := { regs := { pc := 0x4000, b := 0, c := 0x7F, h := 0, l := 0x40 } }
  bus :=
    { memory := (FlatMemory.zeros.write 0x4000 0xED).write 0x4001 0xBA
      floating := hiByte }

theorem peek_sending (a : UInt16) : Bus.peek sending.bus a =
    if 0 = a then 6 else if 0xFFFF = a then 5
    else if 0x4001 = a then 0xB3 else if 0x4000 = a then 0xED else 0 := by
  show ((((FlatMemory.zeros.write 0x4000 0xED).write 0x4001 0xB3).write 0xFFFF 5).write 0 6).read a
    = _
  simp only [FlatMemory.read_write, FlatMemory.read_zeros]

theorem peek_taking (a : UInt16) : Bus.peek taking.bus a =
    if 0x4001 = a then 0xBA else if 0x4000 = a then 0xED else 0 := by
  show ((FlatMemory.zeros.write 0x4000 0xED).write 0x4001 0xBA).read a = _
  simp only [FlatMemory.read_write, FlatMemory.read_zeros]

-- An output counts before it addresses the port, an input afterwards.
theorem steps_blockTransfer_wrapping :
    (Repeating .output .up sending ∧ (steps 2 sending).1 = 37 ∧
      (steps 2 sending).2.bus.events = #[.output 0x017F 5, .output 0x007F 6]) ∧
    (Repeating .input .down taking ∧ (steps 256 taking).1 = 5371 ∧
      (steps 256 taking).2.regs.hl = 0xFF40 ∧
      Bus.peek (steps 256 taking).2.bus 0x003F = 0xFF) := by
  have hsending : Repeating .output .up sending :=
    { intPending := rfl
      nmiPending := rfl
      running := rfl
      first := by rw [peek_sending]; rfl
      second := by rw [peek_sending]; rfl }
  have htaking : Repeating .input .down taking :=
    { intPending := rfl
      nmiPending := rfl
      running := rfl
      first := by rw [peek_taking]; rfl
      second := by rw [peek_taking]; rfl }
  have hsend : sending.transferLength = 2 := by decide
  have htake : taking.transferLength = 256 := by decide
  have hapart : ∀ i < taking.transferLength,
      Direction.moved i taking.regs.hl .down ≠ taking.regs.pc ∧
        Direction.moved i taking.regs.hl .down ≠ taking.regs.pc + 1 := by
    rw [htake]
    decide +kernel
  have hsent := (steps_blockTransfer FlatBus.isRam .up sending).1 hsending
  obtain ⟨htaken, hstored⟩ := (steps_blockTransfer FlatBus.isRam .down taking).2 htaking hapart
  rw [hsend] at hsent
  rw [htake] at htaken hstored
  refine ⟨⟨hsending, ?_, ?_⟩, htaking, ?_, ?_, ?_⟩
  · have hcost := hsent.cost
    rw [hsend] at hcost
    exact hcost
  · have hbus := hsent.bus
    rw [hsend] at hbus
    rw [hbus, Bus.sent_succ, Bus.sent_succ, peek_sending, peek_sending]
    rfl
  · have hcost := htaken.cost
    rw [htake] at hcost
    exact hcost
  · have hhl := htaken.hl
    rw [htake] at hhl
    exact hhl
  · exact hstored 1 (by decide)

end System

end AmstradCpc.Z80
