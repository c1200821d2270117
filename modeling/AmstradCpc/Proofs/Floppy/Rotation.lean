import AmstradCpc.Proofs.Disk.Overwrite
import AmstradCpc.Proofs.Floppy.Isolation
import Mathlib.Data.List.Rotate

/-!
# The sectors that come round

READ ID has no sector to look for: it reports the one that comes next. Which one that is a drive
keeps as a number that is only reduced to the sectors of a track when it is used, so it may come from
a longer track (`Controller.readId_eq`).

Nothing but READ ID for the same drive moves it on as long as the head stays where it is and no
other track is laid down there. So the answers of a run go round the track in the order of its
sectors, whatever else is done in the meantime, and as many answers in a row as there are sectors
have each sector once. They are what the reads of the run return (`Controller.idAnswers_eq`).
-/

namespace AmstradCpc

open Floppy

namespace Disk

/-- Identifications of the sectors of the track at a place, in the order in which they come. -/
def idsAt (d : Disk) (cylinder side : Nat) : List SectorId :=
  ((d.track? cylinder side).map fun t => t.sectors.map (·.id)).getD []

section Ids

variable {d : Disk} {cylinder side : Nat}

theorem idsAt_setTrack {t t' : Track} (h : d.track? cylinder side = some t)
    (hids : t'.sectors.map (·.id) = t.sectors.map (·.id)) (cylinder' side' : Nat) :
    (d.setTrack cylinder side t').idsAt cylinder' side' = d.idsAt cylinder' side' := by
  unfold idsAt
  by_cases hplace : cylinder' = cylinder ∧ side' = side
  · obtain ⟨rfl, rfl⟩ := hplace
    rw [track?_setTrack_self h, h]
    exact hids
  · rw [track?_setTrack_ne (track?_eq_some_iff.mp h).1.2 hplace]

theorem idsAt_writeSectors (d : Disk) (cylinder side : Nat) (targets : List SectorId)
    (bytes : List UInt8) (cylinder' side' : Nat) :
    (writeSectors d cylinder side targets bytes).idsAt cylinder' side' =
      d.idsAt cylinder' side' := by
  induction targets generalizing d bytes with
  | nil => rfl
  | cons id targets ih =>
    refine (ih _ _).trans ?_
    generalize bytes.take _ = data
    cases hwrite : d.writeSector cylinder side id data with
    | none => rfl
    | some d' =>
      obtain ⟨t, i, ht, -, rfl⟩ := writeSector_eq_some_iff.mp hwrite
      exact idsAt_setTrack ht (t.ids_overwrite i data) _ _

end Ids

end Disk

namespace Floppy

/-! ## What stays where it is -/

/-- Identifications of the sectors that go by under a head. -/
def Drive.idsUnder (d : Drive) (head : UInt8) : List SectorId :=
  match d.disk with
  | none => []
  | some disk => disk.idsAt d.cylinder.toNat head.toNat

/-- The write lays down a track in the drive. -/
def PendingWrite.Formats (n : DriveNumber) : PendingWrite → Prop
  | .sectors .. => False
  | .format u .. => u.drive = n

instance (n : DriveNumber) : DecidablePred (PendingWrite.Formats n)
  | .sectors .. => inferInstanceAs (Decidable False)
  | .format u .. => inferInstanceAs (Decidable (u.drive = n))

/-- The host leaves the drive alone, or changes its disk in a way that keeps the identifications. -/
def HostCall.KeepsIds (n : DriveNumber) : HostCall → Prop
  | .mapDisk k f => k = n → ∀ d cylinder side, (f d).idsAt cylinder side = d.idsAt cylinder side
  | call => ¬ call.Reaches n

theorem HostCall.KeepsIds.of_not_reaches {n : DriveNumber} {call : HostCall}
    (h : ¬ call.Reaches n) : call.KeepsIds n := by
  cases call with
  | mapDisk k f => exact fun hk => absurd hk h
  | write | read | reset | insert | eject | setCylinder | setMotor => exact h

/-- The command moves the head of a drive away from a cylinder, or has the sectors reported that go
by under the drive's other head. -/
def TurnsAway (u : Unit) (cylinder : UInt8) (bytes : List UInt8) : Prop :=
  let named := Unit.ofByte (parameter bytes 1)
  match Command.decode (parameter bytes 0) with
  | .seek => named.drive = u.drive ∧ parameter bytes 2 ≠ cylinder
  | .recalibrate => named.drive = u.drive ∧ cylinder ≠ 0
  | .readId => named.drive = u.drive ∧ named ≠ u
  | _ => False

instance (u : Unit) (cylinder : UInt8) : DecidablePred (TurnsAway u cylinder) := fun bytes => by
  unfold TurnsAway
  dsimp only
  split <;> infer_instance

theorem PendingWrite.idsAt_onDisk {pending : PendingWrite} (h : ¬ pending.Formats pending.drive)
    (bytes : List UInt8) (d : Disk) (cylinder side : Nat) :
    (pending.onDisk bytes d).idsAt cylinder side = d.idsAt cylinder side := by
  cases pending with
  | sectors u at' targets eot n => exact d.idsAt_writeSectors _ _ targets bytes _ _
  | format u at' gap3 filler n => exact absurd rfl h

-- Any place of the list can be the first of the window.
theorem take_drop_eq_rotate {α β : Type} {f : α → β} {xs : List α} {ys : List β} {start : Nat}
    (h : ∀ j < ys.length, ys[j]? = (xs[(start + j) % xs.length]?).map f) {j : Nat}
    (hj : j + xs.length ≤ ys.length) :
    (ys.drop j).take xs.length = (xs.rotate (start + j)).map f := by
  refine List.ext_getElem? fun k => ?_
  by_cases hk : k < xs.length
  · have hplace : start + (j + k) = k + (start + j) := by omega
    rw [List.getElem?_take_of_lt hk, List.getElem?_drop, List.getElem?_map,
      List.getElem?_rotate hk, h (j + k) (by omega), hplace]
  · have htake : ((ys.drop j).take xs.length).length ≤ k := by
      rw [List.length_take]
      omega
    have hrotate : ((xs.rotate (start + j)).map f).length ≤ k := by
      rw [List.length_map, List.length_rotate]
      omega
    rw [List.getElem?_eq_none htake, List.getElem?_eq_none hrotate]

namespace Controller

/-- The write that a call carries out. -/
def completedBy? (c : Controller) : HostCall → Option PendingWrite
  | .write v => (c.completed? v).map (·.1)
  | _ => none

/-- The writes that a run carries out. -/
def writeLog : List HostCall → Controller → List PendingWrite := log completedBy?

/-- What there is to be read after a call that carries out READ ID for a unit. -/
def idAnswer? (u : Unit) (c : Controller) (call : HostCall) : Option (List UInt8) :=
  (c.carriedOut? call).bind fun bytes =>
    if Command.decode (parameter bytes 0) = .readId ∧ Unit.ofByte (parameter bytes 1) = u then
      some (call.act c).drain.1
    else none

/-- What the READ ID commands for a unit answer in a run. -/
def idAnswers (u : Unit) : List HostCall → Controller → List (List UInt8) := log (idAnswer? u)

/-- What the reads of a run return for each of its READ ID commands for a unit. -/
def idReplies (u : Unit) : List HostCall → Controller → List Reply
  | [], _ => []
  | call :: calls, c =>
    ((c.idAnswer? u call).map fun _ => reply calls (call.act c)).toList ++
      idReplies u calls (call.act c)

/-- The head of a unit stands on a cylinder, and of the sectors that go by under it number `i`,
going round, comes next. -/
structure Facing (u : Unit) (cylinder : UInt8) (ids : List SectorId) (i : Nat) (c : Controller) :
    Prop where
  place : (c.drive u.drive).cylinder = cylinder
  sectors : (c.drive u.drive).idsUnder u.head = ids
  next : (c.drive u.drive).nextId % ids.length = i % ids.length

/-! ## Commands -/

section Facing

variable {c : Controller} {u : Unit} {cylinder : UInt8} {ids : List SectorId} {id : SectorId}
  {i : Nat}

/-- Where there are sectors, READ ID reports the one that comes next and goes past it. -/
theorem readId_eq {d : Drive} (hd : c.drive u.drive = d)
    (hid : (d.idsUnder u.head)[d.nextId % (d.idsUnder u.head).length]? = some id) :
    c.readId u = (c.setDrive u.drive
      { d with nextId := d.nextId % (d.idsUnder u.head).length + 1 }).finish
        (resultBytes u.st0 0 0 id) := by
  unfold Drive.idsUnder Disk.idsAt at hid ⊢
  unfold readId
  rw [hd]
  dsimp only
  cases hdisk : d.disk with
  | none =>
    rw [hdisk] at hid
    cases hid
  | some disk =>
    rw [hdisk] at hid
    dsimp only at hid ⊢
    cases ht : disk.track? d.cylinder.toNat u.head.toNat with
    | none =>
      rw [ht] at hid
      cases hid
    | some t =>
      rw [ht, Option.map_some, Option.getD_some, List.length_map, List.getElem?_map,
        Option.map_eq_some_iff] at hid
      obtain ⟨s, hs, rfl⟩ := hid
      dsimp only
      rw [hs, Option.map_some, Option.getD_some, List.length_map]
      rfl

theorem drive_seek (c : Controller) (u : Unit) (cylinder : UInt8) :
    (c.seek u cylinder).drive u.drive = { c.drive u.drive with cylinder } := by
  obtain ⟨n, head⟩ := u
  cases n <;> rfl

theorem Facing.of_drive (h : c.Facing u cylinder ids i) {c' : Controller}
    (hdrive : c'.drive u.drive = c.drive u.drive) : c'.Facing u cylinder ids i := by
  obtain ⟨hplace, hsectors, hnext⟩ := h
  rw [← hdrive] at hplace hsectors hnext
  exact ⟨hplace, hsectors, hnext⟩

/-- READ ID for the unit reports the sector that comes next. -/
theorem Facing.readId (h : c.Facing u cylinder ids i) (hid : ids[i % ids.length]? = some id) :
    (c.readId u).drain.1 = resultBytes u.st0 0 0 id ∧
      (c.readId u).Facing u cylinder ids (i + 1) := by
  obtain ⟨hplace, hsectors, hnext⟩ := h
  obtain ⟨d, hd⟩ : ∃ d, c.drive u.drive = d := ⟨_, rfl⟩
  rw [hd] at hplace hsectors hnext
  subst hsectors
  rw [← hnext] at hid
  rw [readId_eq hd hid]
  refine ⟨fst_drain (List.cons_ne_nil _ _), ?_⟩
  have hdrive := (drive_with_phase _ (.result (resultBytes u.st0 0 0 id)) _).trans
    (drive_setDrive_self u.drive
      { d with nextId := d.nextId % (d.idsUnder u.head).length + 1 } c)
  refine ⟨(congrArg Drive.cylinder hdrive).trans hplace,
    (congrArg (Drive.idsUnder · u.head) hdrive).trans rfl,
    (congrArg (Drive.nextId · % _) hdrive).trans ?_⟩
  show (_ % _ + 1) % _ = _
  rw [hnext, Nat.mod_add_mod]

/-- Other commands leave the head over the same sectors, unless one turns it away. -/
theorem Facing.execute (h : c.Facing u cylinder ids i) {bytes : List UInt8}
    (hturns : ¬ TurnsAway u cylinder bytes)
    (hother : ¬ (Command.decode (parameter bytes 0) = .readId ∧
      Unit.ofByte (parameter bytes 1) = u)) :
    (c.execute bytes).Facing u cylinder ids i := by
  unfold TurnsAway at hturns
  dsimp only at hturns
  -- a seek to where the head is already
  have hseek (named : Unit) (target : UInt8)
      (htarget : ¬ (named.drive = u.drive ∧ target ≠ cylinder)) :
      (c.seek named target).drive u.drive = c.drive u.drive := by
    by_cases hdrive : u.drive = named.drive
    · obtain rfl : target = cylinder := not_not.mp fun hne => htarget ⟨hdrive.symm, hne⟩
      rw [hdrive, drive_seek, ← hdrive, ← h.place]
    · exact drive_seek_of_ne hdrive target
  cases hop : Command.decode (parameter bytes 0) with
  | seek =>
    rw [hop] at hturns
    rw [execute_seek hop]
    exact h.of_drive (hseek _ _ hturns)
  | recalibrate =>
    rw [hop] at hturns
    rw [execute_recalibrate hop]
    exact h.of_drive (hseek _ _ fun ⟨hdrive, hto⟩ => hturns ⟨hdrive, hto.symm⟩)
  | readId =>
    rw [hop] at hturns
    rw [execute_readId hop]
    refine h.of_drive (drive_readId_of_ne fun hdrive => ?_)
    exact hturns ⟨hdrive.symm, fun hunit => hother ⟨hop, hunit⟩⟩
  | specify | senseDriveStatus | senseInterruptStatus | readData | readDeletedData | writeData |
    formatTrack | invalid => exact h.of_drive (drive_execute (by rw [hop]; decide))

/-! ## Runs -/

-- A change of the disk that keeps the identifications, whoever makes it.
theorem Facing.of_map (h : c.Facing u cylinder ids i) {c' : Controller} {f : Disk → Disk}
    (hf : ∀ d cylinder side, (f d).idsAt cylinder side = d.idsAt cylinder side)
    (hdrive : c'.drive u.drive =
      { c.drive u.drive with disk := (c.drive u.drive).disk.map f }) :
    c'.Facing u cylinder ids i := by
  obtain ⟨hplace, hsectors, hnext⟩ := h
  refine ⟨hdrive ▸ hplace, ?_, hdrive ▸ hnext⟩
  rw [hdrive, ← hsectors]
  unfold Drive.idsUnder
  dsimp only
  cases (c.drive u.drive).disk with
  | none => rfl
  | some d => exact hf d _ _

/-- The data of a write leaves the identifications, unless it is the data of a format. -/
theorem Facing.commit (h : c.Facing u cylinder ids i) {pending : PendingWrite}
    (hformats : ¬ pending.Formats u.drive) (bytes : List UInt8) :
    (c.commit pending bytes).Facing u cylinder ids i := by
  have hdrive := c.drive_commit (n := u.drive) pending bytes
  by_cases hu : u.drive = pending.drive
  · rw [if_pos hu] at hdrive
    rw [hu] at hformats
    exact h.of_map (PendingWrite.idsAt_onDisk hformats bytes) hdrive
  · rw [if_neg hu] at hdrive
    exact h.of_drive hdrive

theorem idAnswer?_write (c : Controller) (u : Unit) (v : UInt8) :
    c.idAnswer? u (.write v) = (c.command? v).bind fun bytes =>
      if Command.decode (parameter bytes 0) = .readId ∧ Unit.ofByte (parameter bytes 1) = u then
        some (c.write v).drain.1
      else none := rfl

/-- The reads of a run return what READ ID answers. -/
theorem reply_of_idAnswer? {call : HostCall} {answer : List UInt8}
    (h : c.idAnswer? u call = some answer) (later : List HostCall) :
    (reply later (call.act c)).Of answer := by
  cases call with
  | write v =>
    rw [idAnswer?_write] at h
    rcases c.write_cases v with ⟨bytes, hbytes, hc⟩ | ⟨hnone, -⟩ | ⟨hnone, -⟩
    · rw [hbytes, Option.bind_some] at h
      split at h
      case isTrue hread =>
        have hreadable : (c.write v).phase.Readable := by
          rw [hc, execute_readId hread.1]
          exact readable_readId _ _
        cases h
        exact fst_drain hreadable ▸ reply_of_readable hreadable later
      case isFalse => cases h
    · rw [hnone] at h
      cases h
    · rw [hnone] at h
      cases h
  | read | reset | insert | eject | mapDisk | setCylinder | setMotor => cases h

/-- A byte has the sector reported that comes next, or the head goes on facing it. -/
theorem Facing.write (h : c.Facing u cylinder ids i) (hid : ids[i % ids.length]? = some id)
    {v : UInt8} (hcommand : ∀ bytes, c.command? v = some bytes → ¬ TurnsAway u cylinder bytes)
    (hwrite : ∀ pending bytes, c.completed? v = some (pending, bytes) →
      ¬ pending.Formats u.drive) :
    (c.idAnswer? u (.write v) = none ∧ (c.write v).Facing u cylinder ids i) ∨
      (c.idAnswer? u (.write v) = some (resultBytes u.st0 0 0 id) ∧
        (c.write v).Facing u cylinder ids (i + 1)) := by
  have hphase (phase : Phase) : Facing u cylinder ids i { c with phase } :=
    h.of_drive (drive_with_phase c phase u.drive)
  rw [idAnswer?_write]
  rcases c.write_cases v with
    ⟨bytes, hbytes, hc⟩ | ⟨hnone, pending, bytes, hcompleted, -, hc⟩ | ⟨hnone, hc, -⟩
  · rw [hbytes, Option.bind_some]
    by_cases hread : Command.decode (parameter bytes 0) = .readId ∧
        Unit.ofByte (parameter bytes 1) = u
    · obtain ⟨hanswer, hnext⟩ := (hphase .idle).readId hid
      rw [if_pos hread, hc, execute_readId hread.1, hread.2, hanswer]
      exact .inr ⟨rfl, hnext⟩
    · rw [if_neg hread, hc]
      exact .inl ⟨rfl, (hphase .idle).execute (hcommand bytes hbytes) hread⟩
  · rw [hnone, hc]
    exact .inl ⟨rfl, (hphase .idle).commit (hwrite pending bytes hcompleted) bytes⟩
  · rw [hnone, hc]
    exact .inl ⟨rfl, hphase _⟩

/-- A call has the sector reported that comes next, or the head goes on facing it. -/
theorem Facing.act (h : c.Facing u cylinder ids i) (hid : ids[i % ids.length]? = some id)
    {call : HostCall} (hcall : call.KeepsIds u.drive)
    (hcommand : ∀ bytes, c.carriedOut? call = some bytes → ¬ TurnsAway u cylinder bytes)
    (hwrite : ∀ pending, c.completedBy? call = some pending → ¬ pending.Formats u.drive) :
    (c.idAnswer? u call = none ∧ (call.act c).Facing u cylinder ids i) ∨
      (c.idAnswer? u call = some (resultBytes u.st0 0 0 id) ∧
        (call.act c).Facing u cylinder ids (i + 1)) := by
  cases call with
  | write v =>
    refine h.write hid hcommand fun pending bytes hcompleted => hwrite pending ?_
    exact (congrArg (Option.map Prod.fst) hcompleted : _)
  | read => exact .inl ⟨rfl, h.of_drive drive_read⟩
  | reset => exact absurd trivial hcall
  | mapDisk k f =>
    refine .inl ⟨rfl, ?_⟩
    by_cases hk : u.drive = k
    · subst hk
      exact h.of_map (hcall rfl) (drive_setDrive_self _ _ c)
    · exact h.of_drive (drive_setDrive_ne hk _ c)
  | insert k disk => exact .inl ⟨rfl, h.of_drive (drive_setDrive_ne (Ne.symm hcall) _ c)⟩
  | eject k => exact .inl ⟨rfl, h.of_drive (drive_setDrive_ne (Ne.symm hcall) _ c)⟩
  | setCylinder k target => exact .inl ⟨rfl, h.of_drive (drive_setDrive_ne (Ne.symm hcall) _ c)⟩
  | setMotor on => exact .inl ⟨rfl, h.of_drive (by cases u.drive <;> rfl)⟩

/-- What a run answers, from any sector of the track on. -/
theorem Facing.getElem?_idAnswers (h : c.Facing u cylinder ids i) (hids : ids ≠ [])
    {calls : List HostCall} (hcalls : ∀ call ∈ calls, call.KeepsIds u.drive)
    (hcommands : ∀ bytes ∈ commandLog calls c, ¬ TurnsAway u cylinder bytes)
    (hwrites : ∀ pending ∈ writeLog calls c, ¬ pending.Formats u.drive) :
    ∀ j < (idAnswers u calls c).length, (idAnswers u calls c)[j]? =
      (ids[(i + j) % ids.length]?).map (resultBytes u.st0 0 0) := by
  induction calls generalizing c i with
  | nil => exact fun j hj => absurd hj (Nat.not_lt_zero j)
  | cons call calls ih =>
    have hlater : ∀ call ∈ calls, call.KeepsIds u.drive :=
      fun call hcall => hcalls call (List.mem_cons_of_mem _ hcall)
    obtain ⟨hcommand, hcommands⟩ := forall_mem_log_cons.mp hcommands
    obtain ⟨hwrite, hwrites⟩ := forall_mem_log_cons.mp hwrites
    obtain ⟨id, hid⟩ : ∃ id, ids[i % ids.length]? = some id :=
      ⟨_, List.getElem?_eq_getElem (Nat.mod_lt i (List.length_pos_iff.mpr hids))⟩
    unfold Controller.idAnswers log
    rcases h.act hid (hcalls call List.mem_cons_self) hcommand hwrite with
      ⟨hnone, hfacing⟩ | ⟨hsome, hfacing⟩
    · rw [hnone]
      exact ih hfacing hlater hcommands hwrites
    · rw [hsome]
      intro j hj
      cases j with
      | zero =>
        rw [Nat.add_zero, hid]
        rfl
      | succ j =>
        have hplace : i + (j + 1) = i + 1 + j := by omega
        rw [hplace]
        exact ih hfacing hlater hcommands hwrites j (Nat.lt_of_succ_lt_succ hj)

/-- Every answer of a run is what its reads return. -/
theorem forall₂_idReplies (u : Unit) (calls : List HostCall) (c : Controller) :
    List.Forall₂ Reply.Of (idAnswers u calls c) (idReplies u calls c) := by
  induction calls generalizing c with
  | nil => exact .nil
  | cons call calls ih =>
    unfold idAnswers log idReplies
    cases hanswer : c.idAnswer? u call with
    | none => exact ih (call.act c)
    | some answer => exact .cons (reply_of_idAnswer? hanswer calls) (ih (call.act c))

end Facing

/-- The READ ID commands for a unit report the sectors of the track under its head in turn, from the
stored place on, whatever else is done: with the other drive, on other tracks or with the data of
these sectors. As many answers in a row as there are sectors have each sector once. The reads of the
run return these answers, and the whole of each that is read until the controller is idle. -/
theorem idAnswers_eq {c : Controller} {u : Unit} {d : Drive} (hd : c.drive u.drive = d)
    (hids : d.idsUnder u.head ≠ []) {calls : List HostCall}
    (hcalls : ∀ call ∈ calls, call.KeepsIds u.drive)
    (hcommands : ∀ bytes ∈ commandLog calls c, ¬ TurnsAway u d.cylinder bytes)
    (hwrites : ∀ pending ∈ writeLog calls c, ¬ pending.Formats u.drive) :
    let ids := d.idsUnder u.head
    let answers := idAnswers u calls c
    (∀ j < answers.length, answers[j]? =
        (ids[(d.nextId + j) % ids.length]?).map (resultBytes u.st0 0 0)) ∧
      (∀ j, j + ids.length ≤ answers.length →
        ((answers.drop j).take ids.length).Perm (ids.map (resultBytes u.st0 0 0))) ∧
      List.Forall₂ Reply.Of answers (idReplies u calls c) := by
  intro ids answers
  have hfacing : c.Facing u d.cylinder ids d.nextId := by
    subst hd
    exact ⟨rfl, rfl, rfl⟩
  have hanswers : ∀ j < answers.length, answers[j]? =
      (ids[(d.nextId + j) % ids.length]?).map (resultBytes u.st0 0 0) :=
    hfacing.getElem?_idAnswers hids hcalls hcommands hwrites
  refine ⟨hanswers, fun j hj => ?_, forall₂_idReplies u calls c⟩
  rw [take_drop_eq_rotate hanswers hj]
  exact (ids.rotate_perm _).map _

/-- A drive whose number has come from a longer track stands at its second of three sectors. -/
def amongThree : Drive where
  disk := some {
    cylinders := 1
    sides := 1
    tracks := [some ⟨0x4E, 0xE5, [⟨⟨0, 0, 0xC1, 0⟩, 0, 0, [1]⟩, ⟨⟨0, 0, 0xC6, 0⟩, 0, 0, [6]⟩,
      ⟨⟨0, 0, 0xC2, 0⟩, 0, 0, [2]⟩]⟩]
    extended := true }
  nextId := 7

/-- Five times READ ID for drive A. In between a sector is written, the other drive is formatted,
moved and asked for its sectors, and drive A is told to go where it is. -/
def askedFive : List HostCall :=
  let ask := [0x4A, 0x00].map HostCall.write ++ List.replicate 7 .read
  ask ++ [0x45, 0x00, 0x00, 0x00, 0xC6, 0x00, 0xC6, 0x2A, 0xFF, 0x99].map .write ++
    List.replicate 7 .read ++ ask ++ [0x4A, 0x01].map .write ++ List.replicate 7 .read ++
    [0x4D, 0x01, 0x00, 0x01, 0x4E, 0xE5, 0x00, 0x00, 0x01, 0x00].map .write ++
    List.replicate 7 .read ++ ask ++ [0x0F, 0x01, 0x27, 0x07, 0x00].map .write ++ ask ++ ask

theorem idAnswers_eq_askedFive :
    let c : Controller := { driveA := amongThree, driveB := amongThree }
    let answers := idAnswers ⟨.a, 0⟩ askedFive c
    let answer (r : UInt8) : List UInt8 := [0, 0, 0, 0, 0, r, 0]
    answers.length = 5 ∧ answers[0]? = some (answer 0xC6) ∧ answers[4]? = some (answer 0xC2) ∧
      ((answers.drop 1).take 3).Perm [answer 0xC1, answer 0xC6, answer 0xC2] ∧
      List.Forall₂ Reply.Of answers
        ([0xC6, 0xC2, 0xC1, 0xC6, 0xC2].map fun r => ⟨answer r, true⟩) := by
  intro c answers answer
  have hlength : answers.length = 5 := by decide
  have hcalls : ∀ call ∈ askedFive, ¬ call.Reaches .a := by decide
  have hcommands : ∀ bytes ∈ commandLog askedFive c, ¬ TurnsAway ⟨.a, 0⟩ 0 bytes := by decide
  have hwrites : ∀ pending ∈ writeLog askedFive c, ¬ pending.Formats .a := by decide
  have hreplies : idReplies ⟨.a, 0⟩ askedFive c =
      [0xC6, 0xC2, 0xC1, 0xC6, 0xC2].map fun r => ⟨answer r, true⟩ := by decide
  obtain ⟨hanswers, hwindow, hread⟩ := @idAnswers_eq c ⟨.a, 0⟩ amongThree rfl (by decide) askedFive
    (fun call hcall => .of_not_reaches (hcalls call hcall)) hcommands hwrites
  exact ⟨hlength, hanswers 0 (hlength ▸ by decide), hanswers 4 (hlength ▸ by decide),
    hwindow 1 (hlength ▸ by decide), hreplies ▸ hread⟩

end Controller

end Floppy

end AmstradCpc
