import AmstradCpc.Proofs.Floppy.Chip
import AmstradCpc.Proofs.Floppy.DataRegister
import AmstradCpc.Proofs.Floppy.Execution

/-!
# What the buffers hold

The chip looks bytes up in buffers that its phases share. Whatever the host calls, it finds every
byte, runs as the controller does, keeps its cursors inside their buffers, and has a write waiting
only while the data for it comes in (`Chip.exists_run`). So what is unread is read to its last byte.

The two are compared command by command (`Chip.execute?_eq`).
-/

namespace AmstradCpc.Floppy

namespace Chip

/-! ## The controller that a chip stands for -/

def phase (s : Chip) : Phase :=
  match s.stage with
  | .idle => .idle
  | .command => .command s.command
  | .executionRead =>
    .executionRead (s.transfer.drop s.transferIndex) (s.result.drop s.resultIndex)
  | .executionWrite =>
    match s.pending with
    | some pending => .executionWrite pending s.transferLen s.transfer.toArray
    | none => .idle
  | .result => .result (s.result.drop s.resultIndex)

def controller (s : Chip) : Controller := { s.rest with phase := s.phase }

/-- What the phases rely on. -/
structure Invariant (s : Chip) : Prop where
  rest : s.rest.phase = .idle
  /-- A command has begun and is not complete. -/
  command : s.stage = .command →
    ∃ first more, s.command = first :: more ∧ s.command.length < (Command.decode first).length
  /-- A write waits just while its data comes in. -/
  pending : s.pending.isSome ↔ s.stage = .executionWrite
  /-- There is data to be read, and a result behind it. -/
  executionRead : s.stage = .executionRead →
    s.transferIndex < s.transfer.length ∧ s.result ≠ [] ∧ s.resultIndex = 0
  result : s.stage = .result → s.resultIndex < s.result.length

section Phase

variable {s : Chip}

theorem phase_idle (h : s.stage = .idle) : s.controller.phase = .idle := by
  show s.phase = _
  unfold phase
  rw [h]

theorem phase_command (h : s.stage = .command) : s.controller.phase = .command s.command := by
  show s.phase = _
  unfold phase
  rw [h]

theorem phase_executionRead (h : s.stage = .executionRead) :
    s.controller.phase =
      .executionRead (s.transfer.drop s.transferIndex) (s.result.drop s.resultIndex) := by
  show s.phase = _
  unfold phase
  rw [h]

theorem phase_executionWrite (h : s.stage = .executionWrite) {pending : PendingWrite}
    (hpending : s.pending = some pending) :
    s.controller.phase = .executionWrite pending s.transferLen s.transfer.toArray := by
  show s.phase = _
  unfold phase
  rw [h, hpending]

theorem phase_result (h : s.stage = .result) :
    s.controller.phase = .result (s.result.drop s.resultIndex) := by
  show s.phase = _
  unfold phase
  rw [h]

theorem Invariant.with_idle (h : s.Invariant) : { s.controller with phase := .idle } = s.rest := by
  show { s.rest with phase := .idle } = s.rest
  rw [← h.rest]

theorem Invariant.not_pending (h : s.Invariant) (hstage : s.stage ≠ .executionWrite) :
    ¬s.pending.isSome = true := mt h.pending.mp hstage

end Phase

/-! ## Where the controller goes -/

/-- The chip in the phase that a command or a write leaves the controller in. What the chip does by
itself is compared with it. -/
def settle (c : Controller) (s : Chip) : Chip :=
  let s := { s with rest := { c with phase := .idle } }
  match c.phase with
  | .idle | .command _ => { s with stage := .idle }
  | .executionRead data bytes => s.beginRead data bytes
  | .executionWrite pending expected _ => { s with pending := some pending }.beginWrite expected
  | .result bytes => s.finish bytes

section Settle

variable {s : Chip} {c : Controller}

theorem settle_idle (h : c.phase = .idle) : s.settle c = { s with stage := .idle, rest := c } := by
  unfold settle
  rw [h, Controller.with_idle h]

theorem settle_finish (h : c.phase = .idle) (bytes : List UInt8) :
    s.settle (c.finish bytes) = { s with rest := c }.finish bytes := by
  show { s with rest := { c with phase := .idle } }.finish bytes = _
  rw [Controller.with_idle h]

theorem settle_executionRead (h : c.phase = .idle) (data bytes : List UInt8) :
    s.settle { c with phase := .executionRead data bytes } =
      { s with rest := c }.beginRead data bytes := by
  show { s with rest := { c with phase := .idle } }.beginRead data bytes = _
  rw [Controller.with_idle h]

theorem settle_awaitData (h : c.phase = .idle) (pending : PendingWrite) (expected : Nat) :
    s.settle (c.awaitData pending expected) =
      { s with rest := c, pending := some pending }.beginWrite expected := by
  show { s with rest := { c with phase := .idle }, pending := some pending }.beginWrite expected = _
  rw [Controller.with_idle h]

theorem controller_settle (h : c.phase.Settled) : (s.settle c).controller = c := by
  obtain ⟨phase, _, _, _, _, _, _⟩ := c
  cases phase with
  | idle | executionRead data bytes | result bytes => rfl
  | command bytes => exact h.elim
  | executionWrite pending expected received =>
    obtain rfl : received = #[] := h
    rfl

theorem invariant_settle (h : c.phase.Settled) (hpending : ¬s.pending.isSome = true) :
    (s.settle c).Invariant := by
  obtain ⟨phase, _, _, _, _, _, _⟩ := c
  cases phase with
  | idle => exact ⟨rfl, nofun, iff_of_false hpending nofun, nofun, nofun⟩
  | command bytes => exact h.elim
  | executionRead data bytes =>
    obtain ⟨hdata, hbytes⟩ := h
    exact ⟨rfl, nofun, iff_of_false hpending nofun,
      fun _ => ⟨List.length_pos_iff.mpr hdata, hbytes, rfl⟩, nofun⟩
  | executionWrite pending expected received =>
    exact ⟨rfl, nofun, iff_of_true rfl rfl, nofun, nofun⟩
  | result bytes =>
    exact ⟨rfl, nofun, iff_of_false hpending nofun, nofun, fun _ => List.length_pos_iff.mpr h⟩

end Settle

/-! ## Commands -/

theorem transfer?_eq {command : List UInt8} (h : command.length = 9) :
    transfer? command = some (.ofBytes command) := by
  unfold transfer?
  rw [getElem?_eq_parameter (by omega), getElem?_eq_parameter (by omega),
    getElem?_eq_parameter (by omega), getElem?_eq_parameter (by omega),
    getElem?_eq_parameter (by omega), getElem?_eq_parameter (by omega),
    getElem?_eq_parameter (by omega)]
  rfl

section Commands

variable {s : Chip} (hrest : s.rest.phase = .idle)

include hrest

theorem specify_eq (first second : UInt8) :
    s.specify first second = s.settle (s.rest.specify first second) := by
  rw [settle_idle rfl]
  unfold specify Controller.specify
  dsimp only
  rw [hrest]

theorem senseDriveStatus_eq (unitByte : UInt8) :
    s.senseDriveStatus unitByte = s.settle (s.rest.senseDriveStatus unitByte) := by
  unfold senseDriveStatus Controller.senseDriveStatus
  dsimp only
  cases (s.rest.drive (Unit.ofByte unitByte).drive).disk <;> exact (settle_finish hrest _).symm

theorem seek_eq (u : Unit) (cylinder : UInt8) :
    s.seek u cylinder = s.settle (s.rest.seek u cylinder) := by
  rw [settle_idle rfl]
  unfold seek Controller.seek
  dsimp only
  rw [Controller.phase_setDrive, hrest]
  cases (s.rest.drive u.drive).disk <;> rfl

theorem senseInterruptStatus_eq :
    s.senseInterruptStatus = s.settle s.rest.senseInterruptStatus := by
  unfold senseInterruptStatus Controller.senseInterruptStatus
  cases s.rest.seeks with
  | nil => exact (settle_finish hrest _).symm
  | cons completion waiting =>
    exact (settle_finish (c := { s.rest with seeks := waiting, interrupt := !waiting.isEmpty })
      hrest _).symm

theorem readId_eq (u : Unit) : s.readId u = s.settle (s.rest.readId u) := by
  unfold readId Controller.readId
  dsimp only
  cases (s.rest.drive u.drive).disk with
  | none => exact (settle_finish hrest _).symm
  | some disk =>
    dsimp only
    cases disk.track? (s.rest.drive u.drive).cylinder.toNat u.head.toNat with
    | none => exact (settle_finish hrest _).symm
    | some track =>
      dsimp only
      cases track.sectors[(s.rest.drive u.drive).nextId % track.sectors.length]? with
      | none => exact (settle_finish hrest _).symm
      | some sector =>
        exact (settle_finish ((Controller.phase_setDrive _ _ _).trans hrest) _).symm

theorem readData_eq (deleted : Bool) (t : Transfer) :
    s.readData deleted t = s.settle (s.rest.readData deleted t) := by
  unfold readData Controller.readData
  dsimp only
  cases (s.rest.drive t.unit.drive).disk with
  | none => exact (settle_finish hrest _).symm
  | some disk =>
    dsimp only
    cases disk.track? (s.rest.drive t.unit.drive).cylinder.toNat t.unit.head.toNat with
    | none => exact (settle_finish hrest _).symm
    | some track =>
      dsimp only
      split
      · exact (settle_finish hrest _).symm
      · exact (settle_executionRead hrest _ _).symm

theorem writeData_eq (t : Transfer) : s.writeData t = s.settle (s.rest.writeData t) := by
  unfold writeData Controller.writeData
  dsimp only
  cases (s.rest.drive t.unit.drive).disk with
  | none => exact (settle_finish hrest _).symm
  | some disk =>
    dsimp only
    split
    · exact (settle_finish hrest _).symm
    · cases disk.track? (s.rest.drive t.unit.drive).cylinder.toNat t.unit.head.toNat with
      | none => exact (settle_finish hrest _).symm
      | some track =>
        dsimp only
        cases writeRun track t.following t.id with
        | nil => exact (settle_finish hrest _).symm
        | cons first run => exact (settle_awaitData hrest _ _).symm

theorem formatTrack_eq (bytes : List UInt8) :
    s.formatTrack (.ofByte (parameter bytes 1)) (parameter bytes 2) (parameter bytes 3)
        (parameter bytes 4) (parameter bytes 5) =
      s.settle (s.rest.formatTrack bytes) := by
  unfold formatTrack Controller.formatTrack
  dsimp only
  cases (s.rest.drive (Unit.ofByte (parameter bytes 1)).drive).disk with
  | none => exact (settle_finish hrest _).symm
  | some disk =>
    dsimp only
    split
    · exact (settle_finish hrest _).symm
    · split
      · exact (settle_finish hrest _).symm
      · exact (settle_awaitData hrest _ _).symm

theorem commit_eq {pending : PendingWrite} (h : s.pending = some pending) :
    s.commit = s.release.settle (s.rest.commit pending s.transfer) := by
  have hmap (n : DriveNumber) (f : Disk → Disk) : (s.rest.mapDisk n f).phase = .idle :=
    (Controller.phase_setDrive n _ _).trans hrest
  unfold commit Controller.commit
  rw [h]
  cases pending with
  | sectors u cylinder targets eot n =>
    dsimp only
    split <;> exact (settle_finish (s := s.release) (hmap _ _) _).symm
  | format u cylinder gap3 filler n => exact (settle_finish (s := s.release) (hmap _ _) _).symm

/-- A complete command has every byte that is looked up, and does what the controller does. -/
theorem execute?_eq
    (h : s.command.length = (Command.decode (parameter s.command 0)).length) :
    s.execute? = some (s.settle (s.rest.execute s.command)) := by
  have hpos : 0 < s.command.length := h ▸ Command.length_pos _
  have hlookup : ∀ i < s.command.length, s.command[i]? = some (parameter s.command i) :=
    fun i hi => getElem?_eq_parameter hi
  unfold execute? Controller.execute
  rw [hlookup 0 hpos]
  dsimp only [bind, Option.bind]
  cases hop : Command.decode (parameter s.command 0) with
  | senseInterruptStatus => exact congrArg some (senseInterruptStatus_eq hrest)
  | invalid => exact congrArg some (settle_finish hrest _).symm
  | senseDriveStatus =>
    rw [hop] at h
    rw [hlookup 1 (by rw [h]; decide)]
    exact congrArg some (senseDriveStatus_eq hrest _)
  | recalibrate =>
    rw [hop] at h
    rw [hlookup 1 (by rw [h]; decide)]
    exact congrArg some (seek_eq hrest _ _)
  | readId =>
    rw [hop] at h
    rw [hlookup 1 (by rw [h]; decide)]
    exact congrArg some (readId_eq hrest _)
  | specify =>
    rw [hop] at h
    rw [hlookup 1 (by rw [h]; decide), hlookup 2 (by rw [h]; decide)]
    exact congrArg some (specify_eq hrest _ _)
  | seek =>
    rw [hop] at h
    rw [hlookup 1 (by rw [h]; decide), hlookup 2 (by rw [h]; decide)]
    exact congrArg some (seek_eq hrest _ _)
  | formatTrack =>
    rw [hop] at h
    rw [hlookup 1 (by rw [h]; decide), hlookup 2 (by rw [h]; decide),
      hlookup 3 (by rw [h]; decide), hlookup 4 (by rw [h]; decide), hlookup 5 (by rw [h]; decide)]
    exact congrArg some (formatTrack_eq hrest _)
  | readData | readDeletedData =>
    rw [hop] at h
    rw [transfer?_eq h]
    exact congrArg some (readData_eq hrest _ _)
  | writeData =>
    rw [hop] at h
    rw [transfer?_eq h]
    exact congrArg some (writeData_eq hrest _)

end Commands

/-! ## Writing -/

section Write

variable {s : Chip}

-- A byte goes to a command that lacks at least one.
theorem collect?_spec (hrest : s.rest.phase = .idle) (hpending : ¬s.pending.isSome = true)
    {v : UInt8}
    (hlength : (s.command ++ [v]).length ≤
      (Command.decode (parameter (s.command ++ [v]) 0)).length) :
    ∃ s', s.collect? v = some s' ∧ s'.Invariant ∧
      s'.controller = s.rest.collect (s.command ++ [v]) := by
  have hpos : 0 < (s.command ++ [v]).length := List.length_pos_iff.mpr (by simp)
  unfold collect? Controller.collect
  generalize s.command ++ [v] = bytes at *
  dsimp only
  rw [getElem?_eq_parameter hpos]
  dsimp only [bind, Option.bind]
  by_cases hmore : bytes.length < (Command.decode (parameter bytes 0)).length
  · rw [if_neg (Nat.not_le.mpr hmore), if_pos hmore]
    obtain ⟨first, more, rfl⟩ := List.exists_cons_of_length_pos hpos
    exact ⟨_, rfl, ⟨hrest, fun _ => ⟨first, more, rfl, hmore⟩, iff_of_false hpending nofun, nofun,
      nofun⟩, rfl⟩
  · have hcomplete := Nat.le_antisymm hlength (Nat.not_lt.mp hmore)
    have hsettled := s.rest.settled_execute bytes
    have hexecute :=
      execute?_eq (s := { s with stage := .command, command := bytes }) hrest hcomplete
    rw [if_pos (Nat.not_lt.mp hmore), if_neg hmore, hexecute]
    exact ⟨_, rfl, invariant_settle hsettled hpending, controller_settle hsettled⟩

theorem commit_spec (hrest : s.rest.phase = .idle) {pending : PendingWrite}
    (hpending : s.pending = some pending) :
    s.commit.Invariant ∧ s.commit.controller = s.rest.commit pending s.transfer := by
  have hsettled := (s.rest.readable_commit pending s.transfer).settled
  rw [commit_eq hrest hpending]
  exact ⟨invariant_settle hsettled nofun, controller_settle hsettled⟩

theorem Invariant.write_executionWrite (h : s.Invariant) (hstage : s.stage = .executionWrite)
    (v : UInt8) :
    ∃ s', s.write? v = some s' ∧ s'.Invariant ∧ s'.controller = s.controller.write v := by
  obtain ⟨pending, hpending⟩ := Option.isSome_iff_exists.mp (h.pending.mpr hstage)
  have hsize : (s.transfer ++ [v]).length = s.transfer.length + 1 := List.length_append
  unfold write?
  rw [hstage, Controller.write_executionWrite (phase_executionWrite hstage hpending), h.with_idle]
  dsimp only
  rw [List.size_toArray, hsize]
  by_cases hmore : s.transfer.length + 1 < s.transferLen
  · rw [if_pos hmore, if_neg (Nat.not_le.mpr hmore)]
    have hwaits := h.pending.mpr hstage
    refine ⟨_, rfl, ⟨h.rest, nofun, iff_of_true hwaits rfl, nofun, nofun⟩, ?_⟩
    unfold controller phase
    dsimp only
    rw [hpending, List.push_toArray]
  · rw [if_neg hmore, if_pos (Nat.not_lt.mp hmore)]
    let received : Chip := { s with stage := .executionWrite, transfer := s.transfer ++ [v] }
    exact ⟨_, rfl, commit_spec (s := received) h.rest hpending⟩

theorem Invariant.write? (h : s.Invariant) (v : UInt8) :
    ∃ s', s.write? v = some s' ∧ s'.Invariant ∧ s'.controller = s.controller.write v := by
  cases hstage : s.stage with
  | idle =>
    have hpending := h.not_pending (hstage ▸ nofun)
    unfold Chip.write?
    rw [hstage, Controller.write_idle (phase_idle hstage), h.with_idle]
    exact collect?_spec (s := { s with command := [] }) h.rest hpending (Command.length_pos _)
  | command =>
    obtain ⟨first, more, hcommand, hlength⟩ := h.command hstage
    have hpending := h.not_pending (hstage ▸ nofun)
    unfold Chip.write?
    rw [hstage, Controller.write_command (phase_command hstage), h.with_idle]
    refine collect?_spec h.rest hpending ?_
    rw [List.length_append, hcommand]
    rw [hcommand] at hlength
    exact hlength
  | executionWrite => exact h.write_executionWrite hstage v
  | executionRead =>
    unfold Chip.write?
    rw [hstage, Controller.write_executionRead (phase_executionRead hstage)]
    exact ⟨s, rfl, h, rfl⟩
  | result =>
    unfold Chip.write?
    rw [hstage, Controller.write_result (phase_result hstage)]
    exact ⟨s, rfl, h, rfl⟩

end Write

/-! ## Reading -/

/-- Reading shows the byte `v`, as the controller does, and leaves what is unread behind it. -/
structure Shows (s : Chip) (v : UInt8) : Prop where
  next : s.next? = some v
  unread : s.unread = v :: s.advance.unread
  invariant : s.advance.Invariant
  controller : s.controller.read = (v, s.advance.controller)
  last : s.advance.unread = [] → s.advance.stage = .idle

section Read

variable {s : Chip}

theorem next?_executionRead (h : s.stage = .executionRead) :
    s.next? = s.transfer[s.transferIndex]? := by
  unfold next?
  rw [h]

theorem next?_result (h : s.stage = .result) : s.next? = s.result[s.resultIndex]? := by
  unfold next?
  rw [h]

theorem unread_executionRead (h : s.stage = .executionRead) :
    s.unread = s.transfer.drop s.transferIndex ++ s.result.drop s.resultIndex := by
  unfold unread
  rw [h]

theorem unread_result (h : s.stage = .result) : s.unread = s.result.drop s.resultIndex := by
  unfold unread
  rw [h]

theorem Invariant.shows_of_executionRead (h : s.Invariant) (hstage : s.stage = .executionRead) :
    ∃ v, s.Shows v := by
  obtain ⟨hindex, hresult, hstart⟩ := h.executionRead hstage
  have hpending := h.not_pending (hstage ▸ nofun)
  have hnext := (next?_executionRead hstage).trans (List.getElem?_eq_getElem hindex)
  have hdrop := List.drop_eq_getElem_cons hindex
  have hread := Controller.read_executionRead ((phase_executionRead hstage).trans (by rw [hdrop]))
  have hunread := unread_executionRead hstage
  rw [hdrop] at hunread
  refine ⟨s.transfer[s.transferIndex], ?_⟩
  by_cases hlast : s.transfer.length ≤ s.transferIndex + 1
  · have hrest := List.drop_eq_nil_of_le hlast
    have hadvance : s.advance =
        { s with stage := .result, transfer := [], transferIndex := 0 } := by
      unfold advance
      rw [hstage]
      exact if_pos hlast
    have hafter : s.advance.unread = s.result.drop s.resultIndex := by
      rw [hadvance]
      rfl
    refine ⟨hnext, ?_, ?_, ?_, fun hnil => ?_⟩
    · rw [hunread, hrest, hafter]
      rfl
    · have hlength : s.resultIndex < s.result.length := hstart ▸ List.length_pos_iff.mpr hresult
      rw [hadvance]
      exact ⟨h.rest, nofun, iff_of_false hpending nofun, nofun, fun _ => hlength⟩
    · rw [hread, hadvance, hrest]
      rfl
    · rw [hafter, hstart] at hnil
      exact absurd hnil hresult
  · have hrest : (s.transfer.drop (s.transferIndex + 1)).isEmpty = false :=
      List.isEmpty_eq_false_iff.mpr (mt List.drop_eq_nil_iff.mp hlast)
    have hadvance : s.advance =
        { s with stage := .executionRead, transferIndex := s.transferIndex + 1 } := by
      unfold advance
      rw [hstage]
      exact if_neg hlast
    have hafter : s.advance.unread =
        s.transfer.drop (s.transferIndex + 1) ++ s.result.drop s.resultIndex := by
      rw [hadvance]
      rfl
    refine ⟨hnext, ?_, ?_, ?_, fun hnil => ?_⟩
    · rw [hunread, hafter]
      rfl
    · rw [hadvance]
      exact ⟨h.rest, nofun, iff_of_false hpending nofun,
        fun _ => ⟨Nat.not_le.mp hlast, hresult, hstart⟩, nofun⟩
    · rw [hread, hadvance, hrest]
      rfl
    · rw [hafter, List.append_eq_nil_iff, List.drop_eq_nil_iff] at hnil
      exact absurd hnil.1 hlast

theorem Invariant.shows_of_result (h : s.Invariant) (hstage : s.stage = .result) :
    ∃ v, s.Shows v := by
  have hindex := h.result hstage
  have hpending := h.not_pending (hstage ▸ nofun)
  have hnext := (next?_result hstage).trans (List.getElem?_eq_getElem hindex)
  have hdrop := List.drop_eq_getElem_cons hindex
  have hread := Controller.read_result ((phase_result hstage).trans (by rw [hdrop]))
  have hunread := unread_result hstage
  rw [hdrop] at hunread
  refine ⟨s.result[s.resultIndex], ?_⟩
  by_cases hlast : s.result.length ≤ s.resultIndex + 1
  · have hrest := List.drop_eq_nil_of_le hlast
    have hadvance : s.advance = { s with stage := .idle, result := [], resultIndex := 0 } := by
      unfold advance
      rw [hstage]
      exact if_pos hlast
    refine ⟨hnext, ?_, ?_, ?_, fun _ => ?_⟩
    · rw [hunread, hrest, hadvance]
      rfl
    · rw [hadvance]
      exact ⟨h.rest, nofun, iff_of_false hpending nofun, nofun, nofun⟩
    · rw [hread, hadvance, hrest]
      rfl
    · rw [hadvance]
  · have hrest : (s.result.drop (s.resultIndex + 1)).isEmpty = false :=
      List.isEmpty_eq_false_iff.mpr (mt List.drop_eq_nil_iff.mp hlast)
    have hadvance : s.advance = { s with stage := .result, resultIndex := s.resultIndex + 1 } := by
      unfold advance
      rw [hstage]
      exact if_neg hlast
    have hafter : s.advance.unread = s.result.drop (s.resultIndex + 1) := by
      rw [hadvance]
      rfl
    refine ⟨hnext, ?_, ?_, ?_, fun hnil => ?_⟩
    · rw [hunread, hafter]
    · rw [hadvance]
      exact ⟨h.rest, nofun, iff_of_false hpending nofun, nofun, fun _ => Nat.not_le.mp hlast⟩
    · rw [hread, hadvance, hrest]
      rfl
    · rw [hafter, List.drop_eq_nil_iff] at hnil
      exact absurd hnil hlast

theorem Invariant.shows (h : s.Invariant) (hstage : s.stage = .executionRead ∨ s.stage = .result) :
    ∃ v, s.Shows v := by
  rcases hstage with hstage | hstage
  · exact h.shows_of_executionRead hstage
  · exact h.shows_of_result hstage

theorem readable_of_unread (h : s.unread ≠ []) : s.stage = .executionRead ∨ s.stage = .result := by
  unfold unread at h
  split at h
  · rename_i hstage
    exact .inl hstage
  · rename_i hstage
    exact .inr hstage
  · exact absurd rfl h

theorem Shows.read {v : UInt8} (h : s.Shows v) : s.read = (v, s.advance) := by
  unfold Chip.read
  rw [h.next]
  rfl

-- Where nothing is to be read, reading changes nothing.
theorem read_of_not_readable (h : s.stage ≠ .executionRead) (h' : s.stage ≠ .result) :
    s.read = (0xFF, s) := by
  unfold read next? advance
  cases hstage : s.stage with
  | executionRead => exact absurd hstage h
  | result => exact absurd hstage h'
  | idle | command | executionWrite => rfl

theorem Invariant.read (h : s.Invariant) :
    s.read.2.Invariant ∧ s.controller.read = (s.read.1, s.read.2.controller) := by
  cases hstage : s.stage with
  | executionRead | result =>
    obtain ⟨v, hv⟩ := h.shows (by rw [hstage]; decide)
    rw [hv.read]
    exact ⟨hv.invariant, hv.controller⟩
  | idle =>
    rw [read_of_not_readable (hstage ▸ nofun) (hstage ▸ nofun)]
    exact ⟨h, Controller.read_idle (phase_idle hstage)⟩
  | command =>
    rw [read_of_not_readable (hstage ▸ nofun) (hstage ▸ nofun)]
    exact ⟨h, Controller.read_command (phase_command hstage)⟩
  | executionWrite =>
    obtain ⟨pending, hpending⟩ := Option.isSome_iff_exists.mp (h.pending.mpr hstage)
    rw [read_of_not_readable (hstage ▸ nofun) (hstage ▸ nofun)]
    exact ⟨h, Controller.read_executionWrite (phase_executionWrite hstage hpending)⟩

-- The induction is over what is unread.
theorem Invariant.receive_unread (h : s.Invariant) {bytes : List UInt8} (hunread : s.unread = bytes)
    (hbytes : bytes ≠ []) :
    (∀ k < bytes.length, (s.receive k).2.stage ≠ .idle ∧ (s.receive k).2.next? = bytes[k]?) ∧
      (s.receive bytes.length).1 = bytes ∧ (s.receive bytes.length).2.stage = .idle := by
  induction bytes generalizing s with
  | nil => exact absurd rfl hbytes
  | cons v bytes ih =>
    have hstage := readable_of_unread (hunread ▸ hbytes)
    obtain ⟨v', hv⟩ := h.shows hstage
    obtain ⟨rfl, hrest⟩ := List.cons_eq_cons.mp (hv.unread.symm.trans hunread)
    have hreceive : ∀ n, s.receive (n + 1) =
        (v' :: (s.advance.receive n).1, (s.advance.receive n).2) := fun n => by
      rw [receive, hv.read]
    refine ⟨fun k hk => ?_, ?_⟩
    · cases k with
      | zero => exact ⟨by rcases hstage with hstage | hstage <;> exact hstage ▸ nofun, hv.next⟩
      | succ k =>
        have hk := Nat.lt_of_succ_lt_succ hk
        rw [hreceive]
        exact (ih hv.invariant hrest (List.ne_nil_of_length_pos (by omega))).1 k hk
    · rw [List.length_cons, hreceive]
      by_cases hnil : bytes = []
      · rw [hnil] at hrest ⊢
        exact ⟨rfl, hv.last hrest⟩
      · obtain ⟨-, hbytes, hidle⟩ := ih hv.invariant hrest hnil
        exact ⟨congrArg (v' :: ·) hbytes, hidle⟩

-- What is unread is what the phase of the controller holds.
theorem Invariant.controller_receive (h : s.Invariant) (hunread : s.unread ≠ []) :
    s.controller.receive s.unread.length =
      (s.unread, { s.controller with phase := .idle }) := by
  rcases readable_of_unread hunread with hstage | hstage
  · obtain ⟨hindex, hresult, hstart⟩ := h.executionRead hstage
    rw [unread_executionRead hstage]
    refine Controller.receive_executionRead (phase_executionRead hstage)
      (mt List.drop_eq_nil_iff.mp (Nat.not_le.mpr hindex)) ?_
    rw [hstart]
    exact hresult
  · rw [unread_result hstage] at hunread ⊢
    exact Controller.receive_result (phase_result hstage) hunread

end Read

end Chip

/-! ## Calls -/

/-- What the host can do to the controller. -/
inductive HostCall
  | write (v : UInt8)
  | read
  | reset
  | insert (n : DriveNumber) (disk : Disk)
  | eject (n : DriveNumber)
  | mapDisk (n : DriveNumber) (f : Disk → Disk)
  | setCylinder (n : DriveNumber) (cylinder : UInt8)
  | setMotor (on : Bool)

namespace HostCall

def act (call : HostCall) (c : Controller) : Controller :=
  match call with
  | write v => c.write v
  | read => c.read.2
  | reset => c.reset
  | insert n disk => c.insert n disk
  | eject n => (c.eject n).2
  | mapDisk n f => c.mapDisk n f
  | setCylinder n cylinder => c.setCylinder n cylinder
  | setMotor on => c.setMotor on

/-- What becomes of a chip, unless a byte is looked up that is not there. -/
def act? (call : HostCall) (s : Chip) : Option Chip :=
  match call with
  | write v => s.write? v
  | read => some s.read.2
  | reset => some { rest := s.rest.reset }
  | insert n disk => some { s with rest := s.rest.insert n disk }
  | eject n => some { s with rest := (s.rest.eject n).2 }
  | mapDisk n f => some { s with rest := s.rest.mapDisk n f }
  | setCylinder n cylinder => some { s with rest := s.rest.setCylinder n cylinder }
  | setMotor on => some { s with rest := s.rest.setMotor on }

end HostCall

def Controller.run (calls : List HostCall) (c : Controller) : Controller :=
  calls.foldl (fun c call => call.act c) c

namespace Chip

def run? (calls : List HostCall) (s : Chip) : Option Chip :=
  calls.foldlM (fun s call => call.act? s) s

theorem invariant_initial : ({} : Chip).Invariant :=
  ⟨rfl, nofun, iff_of_false nofun nofun, nofun, nofun⟩

section Call

variable {s : Chip}

theorem Invariant.with_rest (h : s.Invariant) {c : Controller} (hc : c.phase = .idle) :
    { s with rest := c }.Invariant :=
  ⟨hc, h.command, h.pending, h.executionRead, h.result⟩

-- Four calls change one drive, whatever the phase.
theorem Invariant.setDrive (h : s.Invariant) (n : DriveNumber) (f : Drive → Drive) :
    { s with rest := s.rest.setDrive n (f (s.rest.drive n)) }.Invariant ∧
      { s with rest := s.rest.setDrive n (f (s.rest.drive n)) }.controller =
        s.controller.setDrive n (f (s.controller.drive n)) := by
  cases n <;> exact ⟨h.with_rest h.rest, rfl⟩

theorem Invariant.act? (h : s.Invariant) (call : HostCall) :
    ∃ s', call.act? s = some s' ∧ s'.Invariant ∧ s'.controller = call.act s.controller := by
  cases call with
  | write v => exact h.write? v
  | read => exact ⟨_, rfl, h.read.1, (congrArg Prod.snd h.read.2).symm⟩
  | reset => exact ⟨_, rfl, ⟨rfl, nofun, iff_of_false nofun nofun, nofun, nofun⟩, rfl⟩
  | insert n disk => exact ⟨_, rfl, h.setDrive n fun d => { d with disk := some disk, nextId := 0 }⟩
  | eject n => exact ⟨_, rfl, h.setDrive n fun d => { d with disk := none }⟩
  | mapDisk n f => exact ⟨_, rfl, h.setDrive n fun d => { d with disk := d.disk.map f }⟩
  | setCylinder n cylinder => exact ⟨_, rfl, h.setDrive n fun d => { d with cylinder }⟩
  | setMotor on => exact ⟨_, rfl, h.with_rest h.rest, rfl⟩

theorem Invariant.run? (h : s.Invariant) (calls : List HostCall) :
    ∃ s', s.run? calls = some s' ∧ s'.Invariant ∧ s'.controller = s.controller.run calls := by
  induction calls generalizing s with
  | nil => exact ⟨s, rfl, h, rfl⟩
  | cons call calls ih =>
    obtain ⟨s', hs', hinvariant, hcontroller⟩ := h.act? call
    obtain ⟨t, ht, hfinal⟩ := ih hinvariant
    refine ⟨t, ?_, ?_⟩
    · unfold Chip.run?
      rw [List.foldlM_cons, hs']
      exact ht
    · unfold Controller.run
      rw [List.foldl_cons, ← hcontroller]
      exact hfinal

end Call

/-- Whatever the host calls, the chip looks up no byte that is not there, runs as the controller
does and keeps its invariant. What is then unread, first the data and then the result, is shown byte
by byte as it stands in the buffers, and after the last the chip is idle. -/
theorem exists_run (calls : List HostCall) :
    ∃ s : Chip, run? calls {} = some s ∧ s.controller = Controller.run calls {} ∧ s.Invariant ∧
      (s.stage = .executionRead ∨ s.stage = .result →
        s.unread ≠ [] ∧
        (∀ k < s.unread.length,
          (s.receive k).2.stage ≠ .idle ∧ (s.receive k).2.next? = s.unread[k]?) ∧
        (s.receive s.unread.length).1 = s.unread ∧
        (s.receive s.unread.length).2.stage = .idle ∧
        s.controller.receive s.unread.length =
          (s.unread, { s.controller with phase := .idle })) := by
  obtain ⟨s, hs, hinvariant, hcontroller⟩ := invariant_initial.run? calls
  refine ⟨s, hs, hcontroller, hinvariant, fun hstage => ?_⟩
  obtain ⟨v, hv⟩ := hinvariant.shows hstage
  have hunread : s.unread ≠ [] := hv.unread ▸ List.cons_ne_nil v _
  obtain ⟨hshown, hbytes, hidle⟩ := hinvariant.receive_unread rfl hunread
  exact ⟨hunread, hshown, hbytes, hidle, hinvariant.controller_receive hunread⟩

-- A seek is sensed. The status byte has been read, and the cylinder has not.
example :
    (run? [.write 0x0F, .write 1, .write 39, .write 8, .read] {}).map (·.unread) = some [39] := by
  decide

end Chip

end AmstradCpc.Floppy
