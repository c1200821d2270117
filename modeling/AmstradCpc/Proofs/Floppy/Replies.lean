import AmstradCpc.Proofs.Floppy.Changes

/-!
# What the host gets to read

What a command has to say is read byte by byte, and in between the host can do other things:
exchange disks, switch the motor, write bytes that are lost. A `Reply` is what the reads of a run
return for a command up to the point where the controller is idle again.

In every run they return what there was to be read, from its first byte on. Once the controller is
idle they have returned all of it, and before that they have not (`Controller.reply_of_readable`).
-/

namespace AmstradCpc.Floppy

namespace Phase

/-- What the data register has to show. -/
def unread : Phase → List UInt8
  | .executionRead data bytes => data ++ bytes
  | .result bytes => bytes
  | _ => []

theorem Readable.unread_ne_nil {phase : Phase} (h : phase.Readable) : phase.unread ≠ [] := by
  cases phase with
  | executionRead data bytes => exact fun hnil => h.1 (List.append_eq_nil_iff.mp hnil).1
  | result bytes => exact h
  | idle | command | executionWrite => exact h.elim

theorem Readable.ne_idle {phase : Phase} (h : phase.Readable) : phase ≠ .idle := by
  rintro rfl
  exact h

end Phase

/-- What a host has got for a command: the bytes that it has read, and whether the controller was
idle after them. -/
structure Reply where
  shown : List UInt8
  drained : Bool
  deriving DecidableEq, Repr

namespace Reply

/-- The reply with a byte in front of it. -/
def behind (v : UInt8) (r : Reply) : Reply := { r with shown := v :: r.shown }

/-- The reply is the answer from its first byte on, and all of it just if it has been drained. -/
structure Of (answer : List UInt8) (r : Reply) : Prop where
  shown : r.shown <+: answer
  drained : r.drained = true ↔ r.shown = answer

theorem of_nothing {answer : List UInt8} (h : answer ≠ []) : Of answer ⟨[], false⟩ :=
  ⟨List.nil_prefix, iff_of_false nofun h.symm⟩

theorem of_all : Of [] ⟨[], true⟩ := ⟨List.nil_prefix, iff_of_true rfl rfl⟩

theorem Of.behind {answer : List UInt8} {r : Reply} (h : r.Of answer) (v : UInt8) :
    (r.behind v).Of (v :: answer) :=
  ⟨List.cons_prefix_cons.mpr ⟨rfl, h.shown⟩, h.drained.trans (List.cons_inj_right v).symm⟩

end Reply

namespace Controller

/-- Reads all that there is to be read. -/
def drain (c : Controller) : List UInt8 × Controller := c.receive c.phase.unread.length

/-- What the reads of a run return until the controller is idle, whatever else is called. A reset
breaks the reply off. -/
def reply : List HostCall → Controller → Reply
  | [], c => ⟨[], c.phase = .idle⟩
  | call :: calls, c =>
    if c.phase = .idle then ⟨[], true⟩
    else
      match call with
      | .read => (reply calls c.read.2).behind c.read.1
      | .reset => ⟨[], false⟩
      | call => reply calls (call.act c)

section Readable

variable {c : Controller}

theorem fst_drain (h : c.phase.Readable) : c.drain.1 = c.phase.unread := by
  unfold drain
  cases hphase : c.phase with
  | executionRead data bytes =>
    rw [hphase] at h
    exact congrArg Prod.fst (receive_executionRead hphase h.1 h.2)
  | result bytes =>
    rw [hphase] at h
    exact congrArg Prod.fst (receive_result hphase h)
  | idle | command | executionWrite =>
    rw [hphase] at h
    exact h.elim

theorem write_of_readable (h : c.phase.Readable) (v : UInt8) : c.write v = c := by
  cases hphase : c.phase with
  | executionRead data bytes => exact write_executionRead hphase v
  | result bytes => exact write_result hphase v
  | idle | command | executionWrite =>
    rw [hphase] at h
    exact h.elim

/-- A read takes the first byte of what there is to be read. -/
theorem read_of_readable (h : c.phase.Readable) :
    c.phase.unread = c.read.1 :: c.read.2.phase.unread ∧
      (c.read.2.phase.Readable ∨ c.read.2.phase = .idle) := by
  cases hphase : c.phase with
  | executionRead data bytes =>
    rw [hphase] at h
    cases data with
    | nil => exact absurd rfl h.1
    | cons v data =>
      rw [read_executionRead hphase]
      cases data with
      | nil => exact ⟨rfl, .inl h.2⟩
      | cons w data => exact ⟨rfl, .inl ⟨List.cons_ne_nil w data, h.2⟩⟩
  | result bytes =>
    rw [hphase] at h
    cases bytes with
    | nil => exact absurd rfl h
    | cons v bytes =>
      rw [read_result hphase]
      cases bytes with
      | nil => exact ⟨rfl, .inr rfl⟩
      | cons w bytes => exact ⟨rfl, .inl (List.cons_ne_nil w bytes)⟩
  | idle | command | executionWrite =>
    rw [hphase] at h
    exact h.elim

theorem reply_idle (h : c.phase = .idle) (calls : List HostCall) :
    reply calls c = ⟨[], true⟩ := by
  cases calls with
  | nil =>
    unfold reply
    rw [h]
    rfl
  | cons call calls =>
    unfold reply
    rw [if_pos h]

/-- In every run the reads return what there was to be read. -/
theorem reply_of_readable (h : c.phase.Readable) (calls : List HostCall) :
    (reply calls c).Of c.phase.unread := by
  induction calls generalizing c with
  | nil =>
    unfold reply
    rw [decide_eq_false h.ne_idle]
    exact Reply.of_nothing h.unread_ne_nil
  | cons call calls ih =>
    -- a call that stays away from the data register leaves the phase
    have hsame {c' : Controller} (hphase : c'.phase = c.phase) :
        (reply calls c').Of c.phase.unread := hphase ▸ ih (hphase ▸ h)
    unfold reply
    rw [if_neg h.ne_idle]
    cases call with
    | read =>
      obtain ⟨hunread, hreadable | hidle⟩ := read_of_readable h
      · exact hunread ▸ (ih hreadable).behind c.read.1
      · rw [hunread, hidle]
        dsimp only
        rw [reply_idle hidle]
        exact Reply.of_all.behind c.read.1
    | reset => exact Reply.of_nothing h.unread_ne_nil
    | write v => exact hsame (congrArg phase (write_of_readable h v))
    | insert n disk => exact hsame (phase_setDrive n _ c)
    | eject n => exact hsame (phase_setDrive n _ c)
    | mapDisk n f => exact hsame (phase_setDrive n _ c)
    | setCylinder n cylinder => exact hsame (phase_setDrive n _ c)
    | setMotor on => exact hsame rfl

end Readable

end Controller

end AmstradCpc.Floppy
