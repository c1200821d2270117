import AmstradCpc.Proofs.Z80.Acceptance
import AmstradCpc.Proofs.Z80.PureSteps
import AmstradCpc.Proofs.Z80.RequestLatches

/-!
# Chains of prefixes

Index prefixes may stand in any number in front of an instruction that has a prefix of its own. Each
is cut short by the next byte, costs four T-states and has no other effect, and no request is served
behind it. So whatever is requested on the way waits until the instruction has run, and that does
what it would do alone (`System.chain_passed`).
-/

namespace AmstradCpc.Z80

/-- The bytes stand in memory from an address on, and reading them changes nothing. -/
def Bus.Stores {β : Type} [Bus β] (bus : β) (a : UInt16) (bytes : List UInt8) : Prop :=
  ∀ (i : ℕ) (v : UInt8), bytes[i]? = some v → Bus.read (a + .ofNat i) bus = (v, bus)

theorem IsIndexPrefix.cancels {b : UInt8} (h : IsIndexPrefix b) : CancelsPrefix b := by
  rcases h with rfl | rfl <;> decide

namespace System

/-! ## One prefix -/

section Plain

variable {β : Type} (s : System β)

/-- The system behind a prefix that has been cut short. -/
def pastPrefix (s : System β) : System β :=
  { s with
    cpu := { s.cpu with
      regs := { s.regs.refresh with pc := s.regs.pc + 1 }
      m1Cycles := s.cpu.m1Cycles + 1
      tStates := s.cpu.tStates + 4
      eiDelay := false
      inPrefix := true } }

/-- The system with no request latched and no prefix in front. -/
def alone (s : System β) : System β :=
  { s with cpu := { s.cpu with inPrefix := false, intPending := false, nmiPending := false } }

theorem fetches_of_inPrefix (hlatch : s.cpu.inPrefix = true) (hrunning : s.regs.halted = false) :
    s.Fetches := by
  refine ⟨?_, hrunning⟩
  unfold Cpu.acceptance
  rw [hlatch]
  rfl

theorem fetches_alone (hrunning : s.regs.halted = false) : s.alone.Fetches := ⟨rfl, hrunning⟩

end Plain

variable {β : Type} [Bus β] {s : System β}

theorem step_of_cut (h : s.Fetches) {v w : UInt8}
    (hfirst : Bus.read s.regs.pc s.bus = (v, s.bus)) (hv : IsIndexPrefix v)
    (hnext : Bus.read (s.regs.pc + 1) s.bus = (w, s.bus)) (hw : CancelsPrefix w) :
    s.step = (4, s.pastPrefix) := by
  obtain ⟨x, hx⟩ := (Opcode.decode_indexPage_iff v).mpr hv
  have hcancels := (Opcode.cancelsIndex_decode_iff w).mpr hw
  have hfetch : s.beginStep.fetchOpcode = (v, s.beginStep.fetched) := by
    show ((Bus.read s.regs.pc s.bus).1,
      ({ s.beginStep.fetched with bus := (Bus.read s.regs.pc s.bus).2 } : System β)) = _
    rw [hfirst]
    rfl
  have hlook : s.beginStep.fetched.read s.beginStep.fetched.regs.pc =
      (w, s.beginStep.fetched) := by
    show ((Bus.read (s.regs.pc + 1) s.bus).1,
      ({ s.beginStep.fetched with bus := (Bus.read (s.regs.pc + 1) s.bus).2 } : System β)) = _
    rw [hnext]
    rfl
  have hcut : s.beginStep.instruction =
      (4, { s.beginStep.fetched with cpu.inPrefix := true }) := by
    simp only [instruction, hfetch, hx, indexed, hlook, hcancels, if_true]
    rfl
  rw [step_of_fetches s h, hcut]
  rfl

-- The latched requests are all that a step with an instruction leaves out of account.
theorem step_eq_alone (h : s.Fetches) :
    s.step = (s.alone.step.1,
      s.alone.step.2.withRequests s.cpu.intPending s.cpu.nmiPending) := by
  have hbegin : s.beginStep =
      s.alone.beginStep.withRequests s.cpu.intPending s.cpu.nmiPending := rfl
  rw [step_of_fetches s h, step_of_fetches _ (s.fetches_alone h.2), hbegin,
    instruction_withRequests]
  rfl

end System

/-! ## Requests -/

section Requests

variable {β : Type} [Bus β]

-- The other calls do not change anything but the latches of the requests.
theorem exists_afterCalls_eq {calls : List CpuCall}
    (h : ∀ c ∈ calls, c ≠ .step ∧ c ≠ .reset) (s : System β) :
    ∃ m n, afterCalls calls s = s.withRequests m n := by
  induction calls generalizing s with
  | nil => exact ⟨s.cpu.intPending, s.cpu.nmiPending, rfl⟩
  | cons c calls ih =>
    have hrest := fun c' hc' => h c' (List.mem_cons_of_mem c hc')
    obtain ⟨m, n, hcalls⟩ := ih hrest (c.apply s)
    refine ⟨m, n, hcalls.trans ?_⟩
    cases c with
    | step => exact absurd rfl (h .step List.mem_cons_self).1
    | reset => exact absurd rfl (h .reset List.mem_cons_self).2
    | _ => rfl

/-- The system after `i` steps, with some calls after each of them. -/
def requestedRun (requests : ℕ → List CpuCall) (s : System β) : ℕ → System β
  | 0 => s
  | i + 1 => afterCalls (requests i) (requestedRun requests s i).step.2

theorem requestedRun_succ (requests : ℕ → List CpuCall) (s : System β) (i : ℕ) :
    requestedRun requests s (i + 1) =
      afterCalls (requests i) (requestedRun requests s i).step.2 := rfl

end Requests

namespace System

/-! ## A chain -/

section Chain

variable {β : Type} [Bus β] {s : System β} {prefixes : List UInt8} {first : UInt8}
  {requests : ℕ → List CpuCall} {i : ℕ}

-- Up to the instruction every byte is a prefix, and the one behind it cuts it short.
theorem exists_isIndexPrefix (first : UInt8) (hprefixes : ∀ b ∈ prefixes, IsIndexPrefix b)
    (hi : i < prefixes.length) :
    ∃ v, (prefixes ++ [first])[i]? = some v ∧ IsIndexPrefix v := by
  refine ⟨prefixes[i], ?_, hprefixes _ (List.getElem_mem hi)⟩
  rw [List.getElem?_append_left hi, List.getElem?_eq_getElem hi]

theorem exists_cancels (hprefixes : ∀ b ∈ prefixes, IsIndexPrefix b) (hfirst : CancelsPrefix first)
    (hi : i < prefixes.length) :
    ∃ w, (prefixes ++ [first])[i + 1]? = some w ∧ CancelsPrefix w := by
  by_cases hnext : i + 1 < prefixes.length
  · obtain ⟨w, hw, hindexed⟩ := exists_isIndexPrefix first hprefixes hnext
    exact ⟨w, hw, hindexed.cancels⟩
  · have hlast : i + 1 = prefixes.length := by omega
    refine ⟨first, ?_, hfirst⟩
    rw [hlast, List.getElem?_append_right (Nat.le_refl _), Nat.sub_self]
    rfl

/-- Where the run stands after `i` prefixes. -/
structure InChain (requests : ℕ → List CpuCall) (s : System β) (i : ℕ) : Prop where
  fetches : (requestedRun requests s i).Fetches
  pc : (requestedRun requests s i).regs.pc = s.regs.pc + .ofNat i
  bus : (requestedRun requests s i).bus = s.bus

theorem InChain.step_eq (h : InChain requests s i) (hprefixes : ∀ b ∈ prefixes, IsIndexPrefix b)
    (hfirst : CancelsPrefix first) (hstored : Bus.Stores s.bus s.regs.pc (prefixes ++ [first]))
    (hi : i < prefixes.length) :
    (requestedRun requests s i).step = (4, (requestedRun requests s i).pastPrefix) := by
  obtain ⟨v, hv, hindexed⟩ := exists_isIndexPrefix first hprefixes hi
  obtain ⟨w, hw, hcancels⟩ := exists_cancels hprefixes hfirst hi
  have hread := hstored i v hv
  have hnext := hstored (i + 1) w hw
  have hone : s.regs.pc + .ofNat (i + 1) = s.regs.pc + .ofNat i + 1 := by
    rw [UInt16.ofNat_add, UInt16.add_assoc]
    rfl
  rw [← h.pc, ← h.bus] at hread
  rw [hone, ← h.pc, ← h.bus] at hnext
  exact step_of_cut h.fetches hread hindexed hnext hcancels

theorem InChain.succ (h : InChain requests s i)
    (hstep : (requestedRun requests s i).step = (4, (requestedRun requests s i).pastPrefix))
    (hrequests : ∀ c ∈ requests i, c ≠ .step ∧ c ≠ .reset) : InChain requests s (i + 1) := by
  obtain ⟨m, n, hcalls⟩ := exists_afterCalls_eq hrequests (requestedRun requests s i).step.2
  have hrun : requestedRun requests s (i + 1) =
      (requestedRun requests s i).pastPrefix.withRequests m n := by
    rw [requestedRun_succ, hcalls, hstep]
  refine ⟨?_, ?_, ?_⟩
  · rw [hrun]
    exact fetches_of_inPrefix _ rfl h.fetches.2
  · rw [hrun, UInt16.ofNat_add, ← UInt16.add_assoc, ← h.pc]
    rfl
  · rw [hrun]
    exact h.bus

/-- A chain of index prefixes in front of an instruction with a prefix of its own, with requests
between the steps. Each prefix is passed in four T-states, no request is accepted before the
instruction, and the instruction does what it does alone; the requests stay latched. -/
theorem chain_passed {k : ℕ} (h : s.Fetches) (hk : prefixes.length = k)
    (hprefixes : ∀ b ∈ prefixes, IsIndexPrefix b) (hfirst : CancelsPrefix first)
    (hstored : Bus.Stores s.bus s.regs.pc (prefixes ++ [first]))
    (hrequests : ∀ i, ∀ c ∈ requests i, c ≠ .step ∧ c ≠ .reset) :
    let run := requestedRun requests s
    (∀ i < k, (run i).step = (4, (run i).pastPrefix)) ∧
      (∀ i ≤ k, ¬ (run i).AcceptsMaskable ∧ ¬ (run i).AcceptsNonMaskable) ∧
      (run k).regs.pc = s.regs.pc + .ofNat k ∧ (run k).bus = s.bus ∧
      (run k).step = ((run k).alone.step.1,
        (run k).alone.step.2.withRequests (run k).cpu.intPending (run k).cpu.nmiPending) ∧
      (¬ (run k).AtCutPrefix → (run k).step.2.cpu.inPrefix = false) := by
  intro run
  subst hk
  have hchain : ∀ i ≤ prefixes.length, InChain requests s i := by
    intro i
    induction i with
    | zero => exact fun _ => ⟨h, (UInt16.add_zero s.regs.pc).symm, rfl⟩
    | succ i ih =>
      intro hi
      have hnow := ih (by omega)
      have hstep := hnow.step_eq hprefixes hfirst hstored (by omega)
      exact hnow.succ hstep (hrequests i)
  have hlast := hchain prefixes.length (Nat.le_refl _)
  refine ⟨?_, ?_, hlast.pc, hlast.bus, step_eq_alone hlast.fetches, ?_⟩
  · intro i hi
    exact (hchain i (by omega)).step_eq hprefixes hfirst hstored hi
  · intro i hi
    have hnone := (fetches_iff (run i)).mp (hchain i hi).fetches
    exact ⟨hnone.1, hnone.2.1⟩
  · intro hcomplete
    rw [← Bool.not_eq_true, inPrefix_step]
    exact fun hcut => hcomplete hcut.2

end Chain

/-- `DD FD` in front of `LD IY,0x1234`, at the end of memory, with interrupts enabled. -/
def chained : System FlatBus where
  cpu := { regs := { pc := 0xFFFE, iff1 := true } }
  bus := { memory := (((((FlatMemory.zeros.write 0xFFFE 0xDD).write 0xFFFF 0xFD).write 0 0xFD).write
    1 0x21).write 2 0x34).write 3 0x12 }

theorem stores_chained : Bus.Stores chained.bus chained.regs.pc ([0xDD, 0xFD] ++ [0xFD]) := by
  have hpeek (a : UInt16) : Bus.peek chained.bus a =
      if 3 = a then 0x12 else if 2 = a then 0x34 else if 1 = a then 0x21 else if 0 = a then 0xFD
      else if 0xFFFF = a then 0xFD else if 0xFFFE = a then 0xDD else 0 := by
    show ((((((FlatMemory.zeros.write 0xFFFE 0xDD).write 0xFFFF 0xFD).write 0 0xFD).write
      1 0x21).write 2 0x34).write 3 0x12).read a = _
    simp only [FlatMemory.read_write, FlatMemory.read_zeros]
  have hpc : chained.regs.pc = 0xFFFE := rfl
  intro i v hv
  have hread : Bus.peek chained.bus (chained.regs.pc + .ofNat i) = v := by
    rw [hpeek, hpc]
    match i with
    | 0 | 1 | 2 =>
      cases hv
      rfl
    | i + 3 => cases hv
  exact Prod.ext hread (FlatBus.pureReads _ _)

-- Both kinds of request are made behind the first prefix.
theorem chain_passed_requested :
    let requests := fun i : ℕ => if i = 0 then [CpuCall.interrupt, .nmi] else []
    let run := requestedRun requests chained
    (run 0).step.1 = 4 ∧ (run 1).step.1 = 4 ∧ (run 2).regs.pc = 0 ∧
      ¬ (run 2).AcceptsMaskable ∧ ¬ (run 2).AcceptsNonMaskable ∧
      (run 2).step = ((run 2).alone.step.1, (run 2).alone.step.2.withRequests true true) := by
  intro requests run
  have hprefixes : ∀ b ∈ [0xDD, 0xFD], IsIndexPrefix b := by
    simp [IsIndexPrefix]
  have hrequests : ∀ i, ∀ c ∈ requests i, c ≠ .step ∧ c ≠ .reset := by
    intro i c hc
    by_cases hi : i = 0
    · simp only [requests, hi, if_true, List.mem_cons, List.not_mem_nil, or_false] at hc
      rcases hc with rfl | rfl <;> decide
    · simp only [requests, hi, if_false, List.not_mem_nil] at hc
  obtain ⟨hsteps, hnone, hpc, -, halone, -⟩ :=
    chain_passed (s := chained) (k := 2) ⟨rfl, rfl⟩ rfl hprefixes
      (by decide : CancelsPrefix 0xFD) stores_chained hrequests
  have hfirst : (run 0).step.1 = 4 := congrArg Prod.fst (hsteps 0 (by decide))
  have hsecond : (run 1).step = (4, (run 1).pastPrefix) := hsteps 1 (by decide)
  have hone : run 1 = afterCalls [.interrupt, .nmi] (run 0).step.2 :=
    requestedRun_succ requests chained 0
  have htwo : run 2 = afterCalls [] (run 1).step.2 := requestedRun_succ requests chained 1
  have hlatched : (run 2).cpu.intPending = true ∧ (run 2).cpu.nmiPending = true := by
    rw [htwo, hsecond, hone]
    exact ⟨rfl, rfl⟩
  obtain ⟨hmaskable, hnonMaskable⟩ := hnone 2 (Nat.le_refl 2)
  rw [hlatched.1, hlatched.2] at halone
  exact ⟨hfirst, congrArg Prod.fst hsecond, hpc.trans (by decide), hmaskable, hnonMaskable,
    halone⟩

end System

end AmstradCpc.Z80
