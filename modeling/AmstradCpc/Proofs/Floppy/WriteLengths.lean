import AmstradCpc.Disk.Image
import AmstradCpc.Proofs.Floppy.Buffers
import AmstradCpc.Proofs.Floppy.WriteRead

/-!
# How many bytes a write takes

WRITE DATA works out in advance how many bytes it takes: as many as the sectors of its run hold. The
controller then waits for data until the last of them is written, whatever else the host does in the
meantime short of a reset. If the sectors of the run are empty it waits all the same, and takes one
byte that goes nowhere (`Controller.status_run_writeData`). READ DATA does not wait then, and
neither does FORMAT TRACK where no sectors are asked for.
-/

namespace AmstradCpc.Floppy

/-- The bytes that some calls write to the data register. -/
def HostCall.written (calls : List HostCall) : List UInt8 :=
  calls.filterMap fun call => match call with
    | write v => some v
    | _ => none

namespace Controller

open HostCall (written)

section Waiting

variable {c : Controller} {pending : PendingWrite} {expected : Nat} {received : Array UInt8}

/-- The status register shows that the controller waits for data. -/
theorem status_eq_iff_executionWrite (c : Controller) :
    c.status = 0xB0 ↔
      ∃ pending expected received, c.phase = .executionWrite pending expected received := by
  unfold status
  constructor
  · intro h
    cases hphase : c.phase with
    | executionWrite pending expected received => exact ⟨pending, expected, received, rfl⟩
    | idle | command | executionRead | result =>
      rw [hphase] at h
      simp [Phase.status] at h
  · rintro ⟨pending, expected, received, hphase⟩
    rw [hphase]
    rfl

theorem status_commit (pending : PendingWrite) (bytes : List UInt8) (c : Controller) :
    (c.commit pending bytes).status = 0xD0 := by
  unfold commit
  split
  · dsimp only
    split <;> rfl
  · rfl

-- Only the data register and a reset have to do with the phase, and reading leaves this one alone.
theorem phase_act_of_not_write (h : c.phase = .executionWrite pending expected received)
    {call : HostCall} (hreset : call ≠ .reset) (hwrite : ∀ v, call ≠ .write v) :
    (call.act c).phase = .executionWrite pending expected received := by
  cases call with
  | write v => exact absurd rfl (hwrite v)
  | read =>
    show c.read.2.phase = _
    rw [read_executionWrite h]
    exact h
  | reset => exact absurd rfl hreset
  | insert n disk | eject n | mapDisk n f | setCylinder n cylinder => cases n <;> exact h
  | setMotor on => exact h

/-- The controller waits until the last byte that it expects is written, and for at least one. -/
theorem phase_run_executionWrite (h : c.phase = .executionWrite pending expected received)
    {calls : List HostCall} (hcalls : .reset ∉ calls)
    (hmore : received.size + (written calls).length < max 1 expected) :
    (c.run calls).phase = .executionWrite pending expected (received ++ written calls) := by
  induction calls generalizing c received with
  | nil =>
    show c.phase = _
    rw [h]
    simp [written]
  | cons call calls ih =>
    have hreset : call ≠ .reset := fun hcall => hcalls (hcall ▸ List.mem_cons_self)
    have hlater : .reset ∉ calls := fun hmem => hcalls (List.mem_cons_of_mem _ hmem)
    show ((call.act c).run calls).phase = _
    by_cases hwrite : ∃ v, call = .write v
    · obtain ⟨v, rfl⟩ := hwrite
      have hbytes : written (.write v :: calls) = v :: written calls := rfl
      have hsize : (received.push v).size = received.size + 1 := Array.size_push v
      rw [hbytes, List.length_cons] at hmore
      have hnext : (c.write v).phase = .executionWrite pending expected (received.push v) := by
        rw [write_executionWrite h, if_pos (by omega)]
      rw [hbytes]
      refine (ih hnext hlater (by omega)).trans ?_
      simp
    · have hbytes : written (call :: calls) = written calls := by
        cases call with
        | write v => exact absurd ⟨v, rfl⟩ hwrite
        | read | reset | insert | eject | mapDisk | setCylinder | setMotor => rfl
      have hnext := phase_act_of_not_write h hreset fun v hv => hwrite ⟨v, hv⟩
      rw [hbytes] at hmore ⊢
      exact ih hnext hlater hmore

/-- The last byte carries out the write. -/
theorem status_write_executionWrite (h : c.phase = .executionWrite pending expected received)
    (hlast : expected ≤ received.size + 1) (v : UInt8) : (c.write v).status = 0xD0 := by
  rw [write_executionWrite h, if_neg (Nat.not_lt.mpr hlast)]
  exact status_commit _ _ _

end Waiting

/-- WRITE DATA waits for data where the drive has a disk that may be written, and a track under the
head on which the first sector is found. -/
theorem exists_run_of_writeData {c : Controller} {tr : Transfer}
    (h : (c.writeData tr).status = 0xB0) :
    ∃ disk t, (c.drive tr.unit.drive).disk = some disk ∧ disk.writeProtected = false ∧
      disk.track? (c.drive tr.unit.drive).cylinder.toNat tr.unit.head.toNat = some t ∧
      writeRun t tr.following tr.id ≠ [] := by
  -- a command that fails has its result to show
  have hresult : (0xD0 : UInt8) ≠ 0xB0 := by decide
  unfold writeData at h
  dsimp only at h
  split at h
  case h_1 => exact absurd h hresult
  case h_2 disk hdisk =>
    split at h
    case isTrue => exact absurd h hresult
    case isFalse hprotected =>
      split at h
      case h_1 => exact absurd h hresult
      case h_2 t ht =>
        split at h
        case h_1 => exact absurd h hresult
        case h_2 hrun => exact ⟨disk, t, hdisk, Bool.eq_false_iff.mpr hprotected, ht, hrun⟩

theorem run_ne_nil_of_writeRun {t : Track} {tr : Transfer}
    (h : writeRun t tr.following tr.id ≠ []) : t.run tr.id tr.eot ≠ [] := by
  rw [tr.run_eq_reach]
  intro hnil
  have hfinds := t.finds_writeRun tr.following tr.id
  rw [hnil] at hfinds
  cases hids : (writeRun t tr.following tr.id).map (·.id) with
  | nil => exact h (List.map_eq_nil_iff.mp hids)
  | cons id ids =>
    rw [hids] at hfinds
    cases hfinds

/-- A WRITE DATA that begins to wait for data waits for as many bytes as the sectors of its run
hold, and for one if they hold none. Until then the status register shows that it waits, and with the last
byte there is a result to be read. -/
theorem status_run_writeData {c : Controller} {op : UInt8} {parameters : List UInt8} {tr : Transfer}
    (hidle : c.phase = .idle) (hop : Command.decode op = .writeData)
    (hparameters : parameters.length = 8) (htr : Transfer.ofBytes (op :: parameters) = tr)
    (hwaits : (c.send (op :: parameters)).status = 0xB0) :
    ∃ disk t, (c.drive tr.unit.drive).disk = some disk ∧ disk.writeProtected = false ∧
      disk.track? (c.drive tr.unit.drive).cylinder.toNat tr.unit.head.toNat = some t ∧
      t.run tr.id tr.eot ≠ [] ∧
      ∀ calls : List HostCall, .reset ∉ calls →
        ((written calls).length < max 1 (t.totalLength (t.run tr.id tr.eot)) →
          ((c.send (op :: parameters)).run calls).status = 0xB0) ∧
        ((written calls).length + 1 = max 1 (t.totalLength (t.run tr.id tr.eot)) →
          ∀ v, (((c.send (op :: parameters)).run calls).write v).status = 0xD0) := by
  have hcommand : 1 + parameters.length = (Command.decode op).length := by
    rw [hop, hparameters]
    rfl
  have hexecute : c.send (op :: parameters) = c.writeData tr := by
    rw [send_command hidle hcommand, execute_writeData hop, htr]
  rw [hexecute] at hwaits ⊢
  obtain ⟨disk, t, hdisk, hprotected, htrack, hrun⟩ := exists_run_of_writeData hwaits
  refine ⟨disk, t, hdisk, hprotected, htrack, run_ne_nil_of_writeRun hrun, fun calls hcalls => ?_⟩
  -- the command has no data yet
  have hphase : (c.writeData tr).phase =
      .executionWrite (c.runWrite tr t) (t.totalLength (t.run tr.id tr.eot)) #[] := by
    rw [writeData_eq hdisk hprotected htrack hrun]
    rfl
  have hsize : (#[] : Array UInt8).size = 0 := rfl
  have hcollected : ((#[] : Array UInt8) ++ written calls).size = (written calls).length := by simp
  constructor
  · intro hmore
    have hwaiting := phase_run_executionWrite hphase hcalls (by omega)
    exact (status_eq_iff_executionWrite _).mpr ⟨_, _, _, hwaiting⟩
  · intro hlast v
    have hwaiting := phase_run_executionWrite hphase hcalls (by omega)
    exact status_write_executionWrite hwaiting (by omega) v

/-- A track of two sectors, and the second has no data. -/
def emptySecond : Track :=
  ⟨0x4E, 0xE5, [⟨⟨0, 0, 1, 0⟩, 0, 0, [0xA1, 0xA2]⟩, ⟨⟨0, 0, 2, 0⟩, 0, 0, []⟩]⟩

/-- An extended image with that track. -/
def emptySecondImage : List UInt8 :=
  padTo 0x30 DiskImage.extendedHeader ++ [1, 1, 0, 0, 2] ++ List.replicate 203 0 ++
    DiskImage.trackBlock true 0 0 emptySecond

set_option maxRecDepth 8000 in
/-- A WRITE DATA for the second sector has nothing to write, but goes on only with one more byte. -/
theorem status_run_writeData_empty :
    let disk : Disk := ⟨1, 1, [some emptySecond], true, false, false⟩
    let c : Controller := { driveA := { disk := some disk } }
    let tr : Transfer := Transfer.ofBytes [0x45, 0, 0, 0, 2, 0, 2, 0x2A, 0xFF]
    Disk.ofBytes emptySecondImage = .ok disk ∧
      emptySecond.totalLength (emptySecond.run tr.id tr.eot) = 0 ∧
      (c.send [0x45, 0, 0, 0, 2, 0, 2, 0x2A, 0xFF]).status = 0xB0 ∧
      ∀ v, ((c.send [0x45, 0, 0, 0, 2, 0, 2, 0x2A, 0xFF]).write v).status = 0xD0 := by
  intro disk c tr
  have hwaits : (c.send [0x45, 0, 0, 0, 2, 0, 2, 0x2A, 0xFF]).status = 0xB0 := by decide
  obtain ⟨disk', t, hdisk, -, ht, -, hcalls⟩ :=
    @status_run_writeData c 0x45 [0, 0, 0, 2, 0, 2, 0x2A, 0xFF] tr rfl (by decide) rfl rfl hwaits
  obtain rfl : disk = disk' := Option.some.inj hdisk
  obtain rfl : emptySecond = t := Option.some.inj ht
  refine ⟨rfl, by decide, hwaits, ?_⟩
  exact (hcalls [] List.not_mem_nil).2 (by decide)

end Controller

end AmstradCpc.Floppy
