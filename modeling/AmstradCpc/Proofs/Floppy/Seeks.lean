import AmstradCpc.Proofs.Floppy.Outcomes
import AmstradCpc.Proofs.Floppy.Replies
import Mathlib.Data.List.Induction

/-!
# Completed seeks

A seek is completed at once and waits to be sensed. `SeekEvent`s are what a run has to do with that:
seeks issued, SENSE INTERRUPT STATUS with what the reads of the run then return, and resets.

Completions wait in a queue: a seek puts its own behind the others, a sense takes the first, and a
reset forgets them all (`SeekEvent.outstanding`). In every run each sense is answered by the
completion that it takes, or by an invalid status where none waits. So the completions that have been
read since the last reset are those of the seeks issued, each of them once and in order, up to those
that still wait; and the interrupt line is up just while one waits (`Controller.seeks_reported`).
-/

namespace AmstradCpc.Floppy

/-! ## Events -/

/-- What a run has to do with seeks. -/
inductive SeekEvent
  /-- SEEK or RECALIBRATE, with the status and the cylinder to be reported. -/
  | issued (st0 cylinder : UInt8)
  /-- SENSE INTERRUPT STATUS, with what has been read of its answer. -/
  | sensed (reply : Reply)
  | reset
  deriving DecidableEq, Repr

namespace SeekEvent

/-- The events since the last reset. -/
def recent (log : List SeekEvent) : List SeekEvent :=
  log.foldl (fun events e => match e with
    | reset => []
    | e => events ++ [e]) []

/-- The completions of the seeks issued. -/
def issues (events : List SeekEvent) : List (UInt8 × UInt8) :=
  events.filterMap fun e => match e with
    | issued st0 cylinder => some (st0, cylinder)
    | _ => none

/-- The completions that have been read. -/
def reports (events : List SeekEvent) : List (UInt8 × UInt8) :=
  events.filterMap fun e => match e with
    | sensed ⟨[st0, cylinder], true⟩ => some (st0, cylinder)
    | _ => none

/-- The completions that wait after some events. -/
def outstanding (log : List SeekEvent) : List (UInt8 × UInt8) :=
  log.foldl (fun waiting e => match e with
    | issued st0 cylinder => waiting ++ [(st0, cylinder)]
    | sensed _ => waiting.tail
    | reset => []) []

/-- What is to be answered while some completions wait: the first of them, or an invalid status. -/
def answer : List (UInt8 × UInt8) → List UInt8
  | [] => [0x80]
  | (st0, cylinder) :: _ => [st0, cylinder]

/-- Every sense gets the answer that was due. -/
def Answered (log : List SeekEvent) : Prop :=
  ∀ before reply after, log = before ++ .sensed reply :: after →
    reply.Of (answer (outstanding before))

/-- What is answered to the senses has been read to its last byte. -/
def Drained (events : List SeekEvent) : Prop :=
  ∀ reply, .sensed reply ∈ events → reply.drained = true

theorem recent_reset (log : List SeekEvent) : recent (log ++ [.reset]) = [] := by
  unfold recent
  rw [List.foldl_append]
  rfl

theorem recent_append {e : SeekEvent} (h : e ≠ .reset) (log : List SeekEvent) :
    recent (log ++ [e]) = recent log ++ [e] := by
  unfold recent
  rw [List.foldl_append]
  cases e with
  | reset => exact absurd rfl h
  | issued st0 cylinder => rfl
  | sensed reply => rfl

theorem issues_append (events : List SeekEvent) (e : SeekEvent) :
    issues (events ++ [e]) = issues events ++ issues [e] :=
  List.filterMap_append

theorem reports_append (events : List SeekEvent) (e : SeekEvent) :
    reports (events ++ [e]) = reports events ++ reports [e] :=
  List.filterMap_append

theorem outstanding_append (log : List SeekEvent) (e : SeekEvent) :
    outstanding (log ++ [e]) =
      match e with
      | issued st0 cylinder => outstanding log ++ [(st0, cylinder)]
      | sensed _ => (outstanding log).tail
      | reset => [] := by
  unfold outstanding
  rw [List.foldl_append]
  cases e <;> rfl

theorem reports_sensed_of_invalid {reply : Reply} (h : reply.Of [0x80]) :
    reports [.sensed reply] = [] := by
  obtain ⟨shown, drained⟩ := reply
  have hlength : shown.length ≤ 1 := h.shown.length_le
  match shown, hlength with
  | [], _ | [_], _ => rfl

theorem reports_sensed {st0 cylinder : UInt8} {reply : Reply} (h : reply.Of [st0, cylinder]) :
    reports [.sensed reply] = if reply.drained then [(st0, cylinder)] else [] := by
  obtain ⟨shown, drained⟩ := reply
  cases drained with
  | true =>
    obtain rfl : shown = [st0, cylinder] := h.drained.mp rfl
    rfl
  | false =>
    match shown with
    | [] | [_] | [_, _] | _ :: _ :: _ :: _ => rfl

theorem Answered.of_append {log : List SeekEvent} {e : SeekEvent} (h : Answered (log ++ [e])) :
    Answered log := fun before reply after hlog =>
  h before reply (after ++ [e]) (by rw [hlog, List.append_assoc, List.cons_append])

theorem answered_append {log : List SeekEvent} {e : SeekEvent} (h : Answered log)
    (he : ∀ reply, e = .sensed reply → reply.Of (answer (outstanding log))) :
    Answered (log ++ [e]) := by
  intro before reply after hlog
  rcases List.eq_nil_or_concat after with rfl | ⟨after, last, rfl⟩
  · obtain ⟨rfl, hlast⟩ := List.append_inj' hlog rfl
    exact he reply (List.cons.inj hlast).1
  · rw [List.concat_eq_append, ← List.cons_append, ← List.append_assoc] at hlog
    exact h before reply after (List.append_inj' hlog rfl).1

/-- Where every sense is answered as is due, no completion is read twice or out of turn, and none is
lost but with an answer that was not read to its end. -/
theorem Answered.balance {log : List SeekEvent} (h : Answered log) :
    (reports (recent log) ++ outstanding log).Sublist (issues (recent log)) ∧
      (Drained (recent log) → issues (recent log) = reports (recent log) ++ outstanding log) := by
  induction log using List.reverseRecOn with
  | nil => exact ⟨List.Sublist.refl _, fun _ => rfl⟩
  | append_singleton log e ih =>
    obtain ⟨hsublist, hwhole⟩ := ih h.of_append
    have hdrained (hall : Drained (recent log ++ [e])) : Drained (recent log) :=
      fun reply hreply => hall reply (List.mem_append_left _ hreply)
    cases e with
    | reset =>
      rw [recent_reset, outstanding_append]
      exact ⟨List.Sublist.refl _, fun _ => rfl⟩
    | issued st0 cylinder =>
      have hrecent := recent_append (e := .issued st0 cylinder) nofun log
      have hreports : reports [.issued st0 cylinder] = [] := rfl
      have hissues : issues [.issued st0 cylinder] = [(st0, cylinder)] := rfl
      rw [hrecent, outstanding_append, issues_append, reports_append, hreports, hissues,
        List.append_nil]
      dsimp only
      rw [← List.append_assoc]
      exact ⟨hsublist.append_right _, fun hall => by rw [hwhole (hdrained hall)]⟩
    | sensed reply =>
      have hreply := h log reply [] rfl
      have hrecent := recent_append (e := .sensed reply) nofun log
      have hissues : issues [.sensed reply] = [] := rfl
      rw [hrecent, outstanding_append, issues_append, reports_append, hissues,
        List.append_nil]
      dsimp only
      cases hwaiting : outstanding log with
      | nil =>
        rw [hwaiting] at hreply hsublist hwhole
        rw [reports_sensed_of_invalid hreply, List.append_nil]
        exact ⟨hsublist, fun hall => hwhole (hdrained hall)⟩
      | cons completion rest =>
        rw [hwaiting] at hreply hsublist hwhole
        rw [reports_sensed hreply, List.append_assoc]
        cases hread : reply.drained with
        | true => exact ⟨hsublist, fun hall => hwhole (hdrained hall)⟩
        | false =>
          have hrest := (List.sublist_cons_self completion rest).append_left
            (reports (recent log))
          refine ⟨hrest.trans hsublist, fun hall => ?_⟩
          have htrue := hall reply (List.mem_append_right _ (List.mem_singleton.mpr rfl))
          rw [hread] at htrue
          cases htrue

end SeekEvent

namespace Controller

/-- The command that a byte completes, with all its bytes. -/
def command? (c : Controller) (v : UInt8) : Option (List UInt8) :=
  let complete? (bytes : List UInt8) : Option (List UInt8) :=
    if bytes.length < (Command.decode (parameter bytes 0)).length then none else some bytes
  match c.phase with
  | .idle => complete? [v]
  | .command bytes => complete? (bytes ++ [v])
  | _ => none

/-- The status of a seek for a unit byte: seek end, the drive and the head, and not ready where there
is no disk. -/
def seekStatus (c : Controller) (unit : UInt8) : UInt8 :=
  0x20 ||| (unit &&& 0x05) ||| if (c.drive (.ofByte unit)).disk.isSome then 0 else 0x48

/-- What a command has to do with seeks to which the host then gets a reply. -/
def commandEvent? (c : Controller) (bytes : List UInt8) (reply : Reply) : Option SeekEvent :=
  match Command.decode (parameter bytes 0) with
  | .seek => some (.issued (c.seekStatus (parameter bytes 1)) (parameter bytes 2))
  | .recalibrate => some (.issued (c.seekStatus (parameter bytes 1)) 0)
  | .senseInterruptStatus => some (.sensed reply)
  | _ => none

/-- What a call has to do with seeks, where the run goes on with `later`. -/
def seekEvent? (c : Controller) (later : List HostCall) : HostCall → Option SeekEvent
  | .reset => some .reset
  | .write v => (c.command? v).bind fun bytes => c.commandEvent? bytes (reply later (c.write v))
  | _ => none

/-- The events of a run. -/
def seekLog : List HostCall → Controller → List SeekEvent
  | [], _ => []
  | call :: calls, c => (c.seekEvent? calls call).toList ++ seekLog calls (call.act c)

/-! ## One call -/

/-- The completions that wait, and the line that says so. -/
def completions (c : Controller) : List (UInt8 × UInt8) × Bool := (c.seeks, c.interrupt)

/-- A call for which an event is logged leaves the completions so. -/
def Follows (c c' : Controller) : Option SeekEvent → Prop
  | none => c'.completions = c.completions
  | some (.issued st0 cylinder) => c'.completions = (c.seeks ++ [(st0, cylinder)], true)
  | some (.sensed reply) =>
    reply.Of (SeekEvent.answer c.seeks) ∧ c'.completions =
      match c.seeks with
      | [] => c.completions
      | _ :: rest => (rest, !rest.isEmpty)
  | some .reset => c'.completions = ([], false)

section Step

variable {c : Controller}

theorem completions_setDrive (n : DriveNumber) (d : Drive) (c : Controller) :
    (c.setDrive n d).completions = c.completions := by
  cases n <;> rfl

theorem st0_ofByte_eq (unit : UInt8) : (Unit.ofByte unit).st0 = unit &&& 0x05 := by
  have hall : ∀ n : Fin 256, (Unit.ofByte (UInt8.ofFin n)).st0 = UInt8.ofFin n &&& 0x05 := by
    decide +kernel
  exact hall unit.toFin

theorem completions_seek (unit cylinder : UInt8) :
    (c.seek (.ofByte unit) cylinder).completions =
      (c.seeks ++ [(c.seekStatus unit, cylinder)], true) := by
  unfold seek seekStatus completions
  dsimp only
  rw [st0_ofByte_eq]
  show (c.seeks ++ [(0x20 ||| (unit &&& 0x05) ||| _, cylinder)], true) =
    (c.seeks ++ [(0x20 ||| (unit &&& 0x05) |||
      if (c.drive (Unit.ofByte unit).drive).disk.isSome then 0 else 0x48, cylinder)], true)
  cases (c.drive (Unit.ofByte unit).drive).disk <;> rfl

theorem unread_senseInterruptStatus (c : Controller) :
    c.senseInterruptStatus.phase.unread = SeekEvent.answer c.seeks := by
  unfold senseInterruptStatus
  cases c.seeks <;> rfl

theorem follows_senseInterruptStatus (c : Controller) (later : List HostCall) :
    c.Follows c.senseInterruptStatus (some (.sensed (reply later c.senseInterruptStatus))) := by
  refine ⟨c.unread_senseInterruptStatus ▸ reply_of_readable c.readable_senseInterruptStatus later, ?_⟩
  unfold senseInterruptStatus
  cases c.seeks <;> rfl

theorem completions_mapDisk (n : DriveNumber) (f : Disk → Disk) (c : Controller) :
    (c.mapDisk n f).completions = c.completions :=
  completions_setDrive n _ c

theorem follows_execute (c : Controller) (bytes : List UInt8) (later : List HostCall) :
    c.Follows (c.execute bytes) (c.commandEvent? bytes (reply later (c.execute bytes))) := by
  unfold commandEvent?
  cases hop : Command.decode (parameter bytes 0) with
  | seek =>
    rw [execute_seek hop]
    exact completions_seek _ _
  | recalibrate =>
    rw [execute_recalibrate hop]
    exact completions_seek _ _
  | senseInterruptStatus =>
    rw [execute_senseInterruptStatus hop]
    exact c.follows_senseInterruptStatus later
  | readId =>
    obtain ⟨n, nextId, phase, hc⟩ := c.exists_nextId_execute hop
    rw [hc]
    exact completions_setDrive n _ c
  | specify | senseDriveStatus | readData | readDeletedData | writeData | formatTrack | invalid =>
    obtain ⟨phase, timings, hc⟩ := c.exists_phase_execute (by rw [hop]; decide)
    rw [hc]
    rfl

theorem seekEvent?_write (c : Controller) (later : List HostCall) (v : UInt8) :
    c.seekEvent? later (.write v) =
      (c.command? v).bind fun bytes => c.commandEvent? bytes (reply later (c.write v)) := rfl

-- A byte that belongs to a command either completes it or is kept.
theorem follows_collect {c : Controller} {v : UInt8} {bytes : List UInt8}
    (hwrite : c.write v = collect bytes { c with phase := .idle })
    (hcommand : c.command? v =
      if bytes.length < (Command.decode (parameter bytes 0)).length then none else some bytes)
    (later : List HostCall) : c.Follows (c.write v) (c.seekEvent? later (.write v)) := by
  rw [seekEvent?_write, hcommand, hwrite]
  unfold collect
  split
  · rfl
  · exact follows_execute { c with phase := .idle } bytes later

theorem follows_write (c : Controller) (v : UInt8) (later : List HostCall) :
    c.Follows (c.write v) (c.seekEvent? later (.write v)) := by
  have hnone (h : c.command? v = none) (hsame : (c.write v).completions = c.completions) :
      c.Follows (c.write v) (c.seekEvent? later (.write v)) := by
    rw [seekEvent?_write, h]
    exact hsame
  cases hphase : c.phase with
  | idle =>
    exact follows_collect (write_idle hphase v) (by unfold command?; rw [hphase]) later
  | command bytes =>
    exact follows_collect (write_command hphase v) (by unfold command?; rw [hphase]) later
  | executionRead data result =>
    exact hnone (by unfold command?; rw [hphase])
      (congrArg completions (write_executionRead hphase v))
  | result bytes =>
    exact hnone (by unfold command?; rw [hphase]) (congrArg completions (write_result hphase v))
  | executionWrite pending expected received =>
    refine hnone (by unfold command?; rw [hphase]) ?_
    rw [write_executionWrite hphase]
    split
    · rfl
    · obtain ⟨phase, hc⟩ := exists_phase_commit { c with phase := .idle } pending
        (received.toList ++ [v])
      rw [hc]
      exact completions_mapDisk pending.drive _ _

theorem completions_read (c : Controller) : c.read.2.completions = c.completions := by
  unfold read
  split <;> rfl

/-- Every call leaves the completions as its event says. -/
theorem follows_act (c : Controller) (later : List HostCall) (call : HostCall) :
    c.Follows (call.act c) (c.seekEvent? later call) := by
  cases call with
  | write v => exact c.follows_write v later
  | read => exact c.completions_read
  | reset => rfl
  | insert n disk => exact completions_setDrive n _ c
  | eject n => exact completions_setDrive n _ c
  | mapDisk n f => exact completions_setDrive n _ c
  | setCylinder n cylinder => exact completions_setDrive n _ c
  | setMotor on => rfl

end Step

/-! ## Runs -/

open SeekEvent (recent issues reports outstanding answer Answered Drained)

/-- A run with this log leads to the controller: what waits is what the events have left behind, the
line says whether there is any, and every answer was the one that was due. -/
structure Accounts (log : List SeekEvent) (c : Controller) : Prop where
  seeks : c.seeks = outstanding log
  interrupt : c.interrupt = !c.seeks.isEmpty
  answered : Answered log

namespace Accounts

variable {log : List SeekEvent} {c c' : Controller}

theorem step (h : Accounts log c) {e? : Option SeekEvent} (hfollows : c.Follows c' e?) :
    Accounts (log ++ e?.toList) c' := by
  obtain ⟨hseeks, hinterrupt, hanswered⟩ := h
  cases e? with
  | none =>
    obtain ⟨hsame, hline⟩ := Prod.mk.inj hfollows
    rw [Option.toList_none, List.append_nil]
    exact ⟨hsame.trans hseeks, by rw [hline, hsame, hinterrupt], hanswered⟩
  | some e =>
    rw [Option.toList_some]
    cases e with
    | reset =>
      obtain ⟨hnone, hline⟩ := Prod.mk.inj hfollows
      refine ⟨?_, by rw [hline, hnone]; rfl, SeekEvent.answered_append hanswered nofun⟩
      rw [hnone, SeekEvent.outstanding_append]
    | issued st0 cylinder =>
      obtain ⟨hmore, hline⟩ := Prod.mk.inj hfollows
      refine ⟨?_, by rw [hline, hmore]; simp, SeekEvent.answered_append hanswered nofun⟩
      rw [hmore, hseeks, SeekEvent.outstanding_append]
    | sensed reply =>
      obtain ⟨hreply, htaken⟩ := hfollows
      have hdue : ∀ r, SeekEvent.sensed reply = .sensed r → r.Of (answer (outstanding log)) := by
        rintro _ ⟨⟩
        exact hseeks ▸ hreply
      have hnext := SeekEvent.outstanding_append log (.sensed reply)
      dsimp only at hnext
      rw [← hseeks] at hnext
      cases hc : c.seeks with
      | nil =>
        -- nothing waits, so nothing is taken
        rw [hc] at htaken hnext hinterrupt
        obtain ⟨hsame, hline⟩ := Prod.mk.inj htaken
        refine ⟨?_, ?_, SeekEvent.answered_append hanswered hdue⟩
        · rw [hsame, hc, hnext]
          rfl
        · rw [hline, hsame, hc]
          exact hinterrupt
      | cons completion rest =>
        rw [hc] at htaken hnext
        obtain ⟨hrest, hline⟩ := Prod.mk.inj htaken
        refine ⟨?_, by rw [hline, hrest], SeekEvent.answered_append hanswered hdue⟩
        rw [hrest, hnext]
        rfl

-- What is read for an event may come later in the run, so the log is known before its run has ended.
theorem run (h : Accounts log c) (calls : List HostCall) :
    Accounts (log ++ seekLog calls c) (c.run calls) := by
  induction calls generalizing log c with
  | nil => exact (List.append_nil log).symm ▸ h
  | cons call calls ih =>
    have hcall := ih (h.step (c.follows_act calls call))
    rw [List.append_assoc] at hcall
    exact hcall

end Accounts

/-- In every run the reads return for each SENSE INTERRUPT STATUS what is due: the status and the
cylinder of the seek that has waited longest since the last reset, or an invalid status if none
waits. So no completion is read twice or out of turn, and if every answer is read to its end the
completions issued since the last reset are those that have been read and then those that wait. The
interrupt line is up just while one waits. -/
theorem seeks_reported (calls : List HostCall) :
    let log := seekLog calls {}
    (∀ before reply after, log = before ++ .sensed reply :: after →
      reply.shown <+: answer (outstanding before) ∧
      (reply.drained = true ↔ reply.shown = answer (outstanding before))) ∧
    (reports (recent log) ++ outstanding log).Sublist (issues (recent log)) ∧
    (Drained (recent log) → issues (recent log) = reports (recent log) ++ outstanding log) ∧
    ((Controller.run calls {}).interrupt = true ↔ outstanding log ≠ []) := by
  have hinitial : Accounts [] {} := ⟨rfl, rfl, fun before reply after h => by simp at h⟩
  have haccounts := hinitial.run calls
  rw [List.nil_append] at haccounts
  obtain ⟨hsublist, hwhole⟩ := haccounts.answered.balance
  refine ⟨fun before reply after hlog => ?_, hsublist, hwhole, ?_⟩
  · have hreply := haccounts.answered before reply after hlog
    exact ⟨hreply.shown, hreply.drained⟩
  · rw [haccounts.interrupt, haccounts.seeks]
    simp

/-- Both drives seek, the second without a disk. While the first answer is read, drive A loses its
disk, drive B gets one and a byte is written that is lost. READ ID comes before the second answer, and
there is no third. Then drive B seeks again. -/
def sensing : List HostCall :=
  [.insert .a (.unformatted 1 1), .write 0x0F, .write 0, .write 39, .write 0x07, .write 5] ++
    [.write 0x08, .read, .eject .a, .write 0x0F, .insert .b (.unformatted 1 1), .setMotor true,
      .read] ++
    [.write 0x4A, .write 0] ++ List.replicate 7 .read ++
    [.write 0x08, .read, .read, .write 0x08, .read, .write 0x0F, .write 1, .write 7]

theorem seeks_reported_exchanged :
    seekLog sensing {} =
      [.issued 0x20 39, .issued 0x6D 0, .sensed ⟨[0x20, 39], true⟩, .sensed ⟨[0x6D, 0], true⟩,
        .sensed ⟨[0x80], true⟩, .issued 0x21 7] ∧
    issues (recent (seekLog sensing {})) = reports (recent (seekLog sensing {})) ++ [(0x21, 7)] ∧
    (Controller.run sensing {}).interrupt = true := by
  have hlog : seekLog sensing {} =
      [.issued 0x20 39, .issued 0x6D 0, .sensed ⟨[0x20, 39], true⟩, .sensed ⟨[0x6D, 0], true⟩,
        .sensed ⟨[0x80], true⟩, .issued 0x21 7] := by decide
  have hdrained : Drained (recent (seekLog sensing {})) := by
    rw [hlog]
    simp [Drained, recent]
  have hwaiting : outstanding (seekLog sensing {}) = [(0x21, 7)] := by
    rw [hlog]
    rfl
  obtain ⟨-, -, hwhole, hinterrupt⟩ := seeks_reported sensing
  refine ⟨hlog, ?_, hinterrupt.mpr (by rw [hwaiting]; exact List.cons_ne_nil _ _)⟩
  rw [hwhole hdrained, hwaiting]

end Controller

end AmstradCpc.Floppy
