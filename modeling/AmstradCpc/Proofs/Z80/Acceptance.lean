import AmstradCpc.Proofs.Z80.Latches
import AmstradCpc.Proofs.Z80.Periods

/-!
# Acceptance of requests over a run

A host drives the CPU by calls: steps, requests of both kinds, the withdrawal of a maskable request,
and resets. `System.accepts_iff_latched` says of every run from a reset which step accepts what: a
request is latched from the call that makes it to the step that accepts it, an `EI` holds a maskable
one off for one step, and a prefix cut short holds off both.

What a step accepts is read off what it does: a maskable request is answered by an acknowledge cycle
on the bus, a non-maskable one by the jump to its handler.
-/

namespace AmstradCpc.Z80

/-! ## What a step accepts -/

namespace System

variable {β : Type} [Bus β] (s : System β)

/-- The calls on the bus during the next step. -/
def stepCalls : List BusCall :=
  let _ : InterruptSource β := ⟨fun b => (.none, b)⟩
  s.traced.step.2.bus.calls

/-- The next step runs an acknowledge cycle and takes down the latch of the maskable request. -/
structure AcceptsMaskable : Prop where
  acknowledge : .acknowledge ∈ s.stepCalls
  pending : s.cpu.intPending = true
  taken : s.step.2.cpu.intPending = false

/-- The next step takes down the latch of the non-maskable request, pushes the program counter and
goes to the handler. -/
structure AcceptsNonMaskable : Prop where
  pending : s.cpu.nmiPending = true
  taken : s.step.2.cpu.nmiPending = false
  pushed : s.step.2.bus = Bus.write (s.regs.sp - 2) (loByte s.regs.pc)
    (Bus.write (s.regs.sp - 1) (hiByte s.regs.pc) s.bus)
  handler : s.step.2.regs.pc = 0x0066

-- Of all that a step does only the service of a maskable request runs an acknowledge cycle.
theorem acknowledge_mem_stepCalls : .acknowledge ∈ s.stepCalls ↔ s.cpu.acceptance = .maskable := by
  let _ : InterruptSource β := ⟨fun b => (.none, b)⟩
  constructor
  · intro hmem
    by_contra hacc
    have hkeeps : AccessKeeps fun t : Traced β => .acknowledge ∉ t.calls :=
      Traced.accessKeeps fun c t hack _ ht => by
        show .acknowledge ∉ t.calls ++ [c]
        rw [List.mem_append, List.mem_singleton]
        exact not_or.mpr ⟨ht, hack.symm⟩
    exact step_keeps_of_not_maskable hkeeps (s := s.traced) hacc (by simp [traced]) hmem
  · intro hacc
    have hkeeps : AccessKeeps fun t : Traced β => .acknowledge ∈ t.calls :=
      Traced.accessKeeps fun c t _ _ ht => List.mem_append_left [c] ht
    exact step_keeps_of_maskable hkeeps (s := s.traced) hacc
      (List.mem_append_right _ (List.mem_singleton_self _))

omit [Bus β] in
theorem acceptance_maskable_iff : s.cpu.acceptance = .maskable ↔
    s.cpu.intPending = true ∧ s.regs.iff1 = true ∧ s.cpu.nmiPending = false ∧
      s.cpu.eiDelay = false ∧ s.cpu.inPrefix = false := by
  unfold Cpu.acceptance regs
  grind

omit [Bus β] in
theorem acceptance_nonMaskable_iff : s.cpu.acceptance = .nonMaskable ↔
    s.cpu.nmiPending = true ∧ s.cpu.inPrefix = false := by
  unfold Cpu.acceptance
  grind

theorem acceptsMaskable_iff : s.AcceptsMaskable ↔ s.cpu.acceptance = .maskable := by
  constructor
  · intro h
    exact s.acknowledge_mem_stepCalls.mp h.acknowledge
  · intro hacc
    refine ⟨s.acknowledge_mem_stepCalls.mpr hacc, (s.acceptance_maskable_iff.mp hacc).1, ?_⟩
    rw [intPending_step, hacc]
    exact Bool.and_false _

theorem acceptsNonMaskable_iff : s.AcceptsNonMaskable ↔ s.cpu.acceptance = .nonMaskable := by
  constructor
  · intro h
    have htaken := h.taken
    rw [nmiPending_step, h.pending, Bool.true_and] at htaken
    simpa using htaken
  · intro hacc
    have hstep : s.step.2 = (s.beginStep.acceptNonMaskable.2).charge 11 := by
      rw [step_eq, hacc]
      rfl
    refine ⟨(s.acceptance_nonMaskable_iff.mp hacc).1, ?_, ?_, ?_⟩
    · rw [nmiPending_step, hacc]
      exact Bool.and_false _
    · rw [hstep]
      rfl
    · rw [hstep]
      rfl

theorem fetches_iff : s.Fetches ↔
    ¬ s.AcceptsMaskable ∧ ¬ s.AcceptsNonMaskable ∧ s.regs.halted = false := by
  rw [acceptsMaskable_iff, acceptsNonMaskable_iff, Fetches]
  cases s.cpu.acceptance <;> simp

/-- The next step executes `EI`, plain or behind an index prefix. -/
def ExecutesEnable : Prop :=
  (¬ s.AcceptsMaskable ∧ ¬ s.AcceptsNonMaskable ∧ s.regs.halted = false) ∧ s.AtEnable

/-- The next step ends at a prefix that another one cuts short. -/
def CutsPrefix : Prop :=
  (¬ s.AcceptsMaskable ∧ ¬ s.AcceptsNonMaskable ∧ s.regs.halted = false) ∧ s.AtCutPrefix

end System

/-! ## Calls and visits -/

/-- A call on the CPU. -/
inductive CpuCall
  | step
  | interrupt
  | nmi
  | clearInterrupt
  | reset
  deriving DecidableEq, Repr

section Runs

variable {β : Type} [Bus β]

/-- The system after a call. -/
def CpuCall.apply (s : System β) : CpuCall → System β
  | .step => s.step.2
  | .interrupt => { s with cpu := s.cpu.interrupt }
  | .nmi => { s with cpu := s.cpu.nmi }
  | .clearInterrupt => { s with cpu := s.cpu.clearInterrupt }
  | .reset => { s with cpu := s.cpu.reset }

/-- The system after some calls. -/
def afterCalls (calls : List CpuCall) (s : System β) : System β := calls.foldl CpuCall.apply s

theorem afterCalls_concat (calls : List CpuCall) (c : CpuCall) (s : System β) :
    afterCalls (calls ++ [c]) s = c.apply (afterCalls calls s) :=
  List.foldl_append

/-- Some calls, each with the system that it was made on. -/
def visits : List CpuCall → System β → List (CpuCall × System β)
  | [], _ => []
  | c :: calls, s => (c, s) :: visits calls (c.apply s)

theorem visits_concat (calls : List CpuCall) (c : CpuCall) (s : System β) :
    visits (calls ++ [c]) s = visits calls s ++ [(c, afterCalls calls s)] := by
  induction calls generalizing s with
  | nil => rfl
  | cons d calls ih =>
    show (d, s) :: visits (calls ++ [c]) (d.apply s) = _
    rw [ih]
    rfl

end Runs

/-! ## Since -/

/-- An element of the list opens a time that no later one ends. -/
def Since {α : Type} (opens ends : α → Prop) (l : List α) : Prop :=
  ∃ before x after, l = before ++ x :: after ∧ opens x ∧ ∀ y ∈ after, ¬ ends y

section Since

variable {α : Type} {opens ends : α → Prop}

theorem not_since_nil : ¬ Since opens ends [] := by
  rintro ⟨before, x, after, h, -⟩
  simp at h

theorem since_concat (l : List α) (x : α) :
    Since opens ends (l ++ [x]) ↔ opens x ∨ ¬ ends x ∧ Since opens ends l := by
  constructor
  · rintro ⟨before, y, after, hl, hy, hafter⟩
    rcases List.eq_nil_or_concat after with rfl | ⟨rest, z, rfl⟩
    · obtain ⟨-, rfl⟩ := List.append_singleton_inj.mp hl
      exact .inl hy
    · rw [List.concat_eq_append, ← List.cons_append, ← List.append_assoc] at hl
      obtain ⟨rfl, rfl⟩ := List.append_singleton_inj.mp hl
      rw [List.concat_eq_append] at hafter
      refine .inr ⟨hafter x (by simp), before, y, rest, rfl, hy, fun w hw => hafter w ?_⟩
      exact List.mem_append_left _ hw
  · rintro (hx | ⟨hx, before, y, after, rfl, hy, hafter⟩)
    · exact ⟨l, x, [], rfl, hx, by simp⟩
    · refine ⟨before, y, after ++ [x], by simp, hy, ?_⟩
      simp only [List.mem_append, List.mem_singleton]
      rintro w (hw | rfl)
      · exact hafter w hw
      · exact hx

variable {β : Type} [Bus β]

-- A latch that is down at first, put up by what opens a time and else taken down by what ends it.
theorem latched_iff_since (latch : System β → Bool) {opens ends : CpuCall × System β → Prop}
    (hcall : ∀ (c : CpuCall) (s : System β),
      latch (c.apply s) = true ↔ opens (c, s) ∨ ¬ ends (c, s) ∧ latch s = true)
    (s : System β) (hs : latch s = false) (calls : List CpuCall) :
    latch (afterCalls calls s) = true ↔ Since opens ends (visits calls s) := by
  induction calls using List.reverseRecOn with
  | nil =>
    have hdown : ¬ latch s = true := by simp [hs]
    exact iff_of_false hdown not_since_nil
  | append_singleton calls c ih => rw [afterCalls_concat, visits_concat, since_concat, hcall, ih]

end Since

/-! ## The latches over a run -/

section Latches

variable {β : Type} [Bus β]

/-- The last step so far, if none came after it and no reset, had the property. -/
def PreviousStep (P : System β → Prop) (past : List (CpuCall × System β)) : Prop :=
  Since (fun v => v.1 = .step ∧ P v.2) (fun v => v.1 = .step ∨ v.1 = .reset) past

/-- The call makes the latch of the maskable request empty. -/
def DropsMaskable (v : CpuCall × System β) : Prop :=
  v.1 = .clearInterrupt ∨ v.1 = .reset ∨ v.1 = .step ∧ v.2.AcceptsMaskable

/-- The call makes the latch of the non-maskable request empty. -/
def DropsNonMaskable (v : CpuCall × System β) : Prop :=
  v.1 = .reset ∨ v.1 = .step ∧ v.2.AcceptsNonMaskable

theorem eiDelay_apply (c : CpuCall) (s : System β) :
    (c.apply s).cpu.eiDelay = true ↔
      (c = .step ∧ s.ExecutesEnable) ∨ ¬ (c = .step ∨ c = .reset) ∧ s.cpu.eiDelay = true := by
  cases c with
  | step => simp [CpuCall.apply, System.eiDelay_step, System.ExecutesEnable, System.fetches_iff]
  | reset => simp [CpuCall.apply, Cpu.reset]
  | _ => simp [CpuCall.apply, Cpu.interrupt, Cpu.nmi, Cpu.clearInterrupt]

theorem inPrefix_apply (c : CpuCall) (s : System β) :
    (c.apply s).cpu.inPrefix = true ↔
      (c = .step ∧ s.CutsPrefix) ∨ ¬ (c = .step ∨ c = .reset) ∧ s.cpu.inPrefix = true := by
  cases c with
  | step => simp [CpuCall.apply, System.inPrefix_step, System.CutsPrefix, System.fetches_iff]
  | reset => simp [CpuCall.apply, Cpu.reset]
  | _ => simp [CpuCall.apply, Cpu.interrupt, Cpu.nmi, Cpu.clearInterrupt]

theorem intPending_apply (c : CpuCall) (s : System β) :
    (c.apply s).cpu.intPending = true ↔
      c = .interrupt ∨ ¬ DropsMaskable (c, s) ∧ s.cpu.intPending = true := by
  cases c with
  | step =>
    simp [CpuCall.apply, DropsMaskable, System.intPending_step, System.acceptsMaskable_iff,
      and_comm]
  | _ =>
    simp [CpuCall.apply, DropsMaskable, Cpu.interrupt, Cpu.nmi, Cpu.clearInterrupt, Cpu.reset]

theorem nmiPending_apply (c : CpuCall) (s : System β) :
    (c.apply s).cpu.nmiPending = true ↔
      c = .nmi ∨ ¬ DropsNonMaskable (c, s) ∧ s.cpu.nmiPending = true := by
  cases c with
  | step =>
    simp [CpuCall.apply, DropsNonMaskable, System.nmiPending_step, System.acceptsNonMaskable_iff,
      and_comm]
  | _ =>
    simp [CpuCall.apply, DropsNonMaskable, Cpu.interrupt, Cpu.nmi, Cpu.clearInterrupt, Cpu.reset]

open Classical in
/-- The number of steps that accepted a maskable request. -/
noncomputable def acceptances (past : List (CpuCall × System β)) : Nat :=
  past.countP fun v => v.1 = .step ∧ v.2.AcceptsMaskable

-- An acceptance is paid for by the latched request that it takes down.
theorem accepted_add_le (c : CpuCall) (s : System β) [Decidable (c = .step ∧ s.AcceptsMaskable)] :
    (if c = .step ∧ s.AcceptsMaskable then 1 else 0) + (c.apply s).cpu.intPending.toNat ≤
      s.cpu.intPending.toNat + [c].count .interrupt := by
  cases c with
  | step =>
    have hpending := s.intPending_step
    by_cases hacc : s.AcceptsMaskable
    · have htaken : (CpuCall.step.apply s).cpu.intPending = false := hacc.taken
      rw [htaken, hacc.pending, if_pos ⟨rfl, hacc⟩]
      simp
    · have hkept : (CpuCall.step.apply s).cpu.intPending = s.cpu.intPending := by
        rw [System.acceptsMaskable_iff] at hacc
        rw [bne_iff_ne.mpr hacc, Bool.and_true] at hpending
        exact hpending
      rw [hkept, if_neg fun h => hacc h.2]
      simp
  | _ => simp [CpuCall.apply, Cpu.interrupt, Cpu.nmi, Cpu.clearInterrupt, Cpu.reset]

theorem acceptances_add_le (s : System β) (hs : s.cpu.intPending = false) (calls : List CpuCall) :
    acceptances (visits calls s) + (afterCalls calls s).cpu.intPending.toNat ≤
      calls.count .interrupt := by
  classical
  induction calls using List.reverseRecOn with
  | nil =>
    show 0 + s.cpu.intPending.toNat ≤ 0
    rw [hs]
    rfl
  | append_singleton calls c ih =>
    have hcall := accepted_add_le c (afterCalls calls s)
    have hcount : acceptances (visits (calls ++ [c]) s) = acceptances (visits calls s) +
        if c = .step ∧ (afterCalls calls s).AcceptsMaskable then 1 else 0 := by
      rw [visits_concat]
      unfold acceptances
      rw [List.countP_append, List.countP_singleton]
      simp only [decide_eq_true_eq]
    rw [hcount, afterCalls_concat, List.count_append]
    omega

/-- After any calls on a CPU that has been reset, the next step accepts the maskable request just
when one is latched, interrupts are enabled, no non-maskable one is latched, and the previous step
neither executed `EI` nor ended at a cut prefix; it accepts a non-maskable one just when one is
latched and the previous step did not end at a cut prefix. A request of either kind is latched since
a call made it unless the latch has been emptied after that, and no acceptance goes without a
request of its own. -/
theorem System.accepts_iff_latched (s : System β) (calls : List CpuCall) :
    let past := visits calls (CpuCall.reset.apply s)
    let now := afterCalls calls (CpuCall.reset.apply s)
    (now.AcceptsMaskable ↔
      now.cpu.intPending = true ∧ now.regs.iff1 = true ∧ now.cpu.nmiPending = false ∧
        ¬ PreviousStep ExecutesEnable past ∧ ¬ PreviousStep CutsPrefix past) ∧
    (now.AcceptsNonMaskable ↔
      now.cpu.nmiPending = true ∧ ¬ PreviousStep CutsPrefix past) ∧
    (now.cpu.intPending = true ↔ Since (fun v => v.1 = .interrupt) DropsMaskable past) ∧
    (now.cpu.nmiPending = true ↔ Since (fun v => v.1 = .nmi) DropsNonMaskable past) ∧
    acceptances past ≤ calls.count .interrupt := by
  intro past now
  have hei : now.cpu.eiDelay = true ↔ PreviousStep ExecutesEnable past :=
    latched_iff_since (fun s => s.cpu.eiDelay) eiDelay_apply _ rfl calls
  have hpre : now.cpu.inPrefix = true ↔ PreviousStep CutsPrefix past :=
    latched_iff_since (fun s => s.cpu.inPrefix) inPrefix_apply _ rfl calls
  refine ⟨?_, ?_, ?_, ?_, ?_⟩
  · rw [acceptsMaskable_iff, acceptance_maskable_iff, ← hei, ← hpre, Bool.not_eq_true,
      Bool.not_eq_true]
  · rw [acceptsNonMaskable_iff, acceptance_nonMaskable_iff, ← hpre, Bool.not_eq_true]
  · exact latched_iff_since (fun s => s.cpu.intPending) intPending_apply _ rfl calls
  · exact latched_iff_since (fun s => s.cpu.nmiPending) nmiPending_apply _ rfl calls
  · exact Nat.le_of_add_right_le (acceptances_add_le (CpuCall.reset.apply s) rfl calls)

end Latches

end AmstradCpc.Z80
