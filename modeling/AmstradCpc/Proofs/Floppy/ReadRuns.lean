import AmstradCpc.Proofs.Floppy.WriteRead
import AmstradCpc.Word
import Mathlib.Data.List.Nodup
import Mathlib.Data.List.Perm.Subperm

/-!
# What a read yields

READ DATA and READ DELETED DATA go from record to record and stop at the first one that gives a
reason (`Track.stop?`): it is missing, it has the other kind of mark and is not to be skipped, it
has a data error, or it is the last. Data and result follow from where that is and from the reason
(`Track.exists_stopsAt`). Every record before it is that of another sector, so no more are passed
than the track has sectors.
-/

namespace AmstradCpc

open Floppy

namespace Floppy

/-- Why a read stops. -/
inductive Stop
  | noData
  | controlMark
  | dataError (s : Sector)
  | endOfCylinder
  deriving DecidableEq, Repr, Inhabited

namespace Stop

def st0 : Stop → UInt8
  | .controlMark => 0
  | _ => St0.abnormal

def st1 : Stop → UInt8
  | .noData => St1.noData
  | .controlMark => 0
  | .dataError s => s.st1 &&& St1.dataError
  | .endOfCylinder => St1.endOfCylinder

-- The bit for the mark is not the reason's own: sectors that were skipped set it too.
def st2 : Stop → UInt8
  | .dataError s => s.st2 &&& St2.dataError
  | _ => 0

-- The sector that is reported, if the read stops at the given one.
def id (reached : SectorId) : Stop → SectorId
  | .endOfCylinder => nextCylinder reached
  | _ => reached

end Stop

end Floppy

/-- The identification of the record that comes `i` records later. -/
def SectorId.later (id : SectorId) (i : Nat) : SectorId := { id with r := id.r + .ofNat i }

theorem SectorId.later_zero (id : SectorId) : id.later 0 = id := by
  unfold later
  rw [show UInt8.ofNat 0 = 0 from rfl, UInt8.add_zero]

theorem SectorId.later_succ (id : SectorId) (i : Nat) :
    id.later (i + 1) = (nextRecord id).later i := by
  unfold later nextRecord
  rw [Track.add_ofNat_succ]

namespace Track

variable (t : Track) (deleted skip : Bool) (eot : UInt8) (id : SectorId)

-- The sector that a record is read from.
def answering : Option Sector := t.find? id.c id.h id.r

-- A record that is missing has no wrong mark either.
def WrongMark : Prop := ∃ s, t.answering id = some s ∧ s.isDeleted ≠ deleted

instance : Decidable (t.WrongMark deleted id) :=
  inferInstanceAs (Decidable (∃ s ∈ t.answering id, s.isDeleted ≠ deleted))

/-- The reason to stop at a record, if there is one. -/
def stop? : Option Stop :=
  match t.answering id with
  | none => some .noData
  | some s =>
    if s.isDeleted ≠ deleted ∧ skip = false then some .controlMark
    else if s.hasDataError then some (.dataError s)
    else if id.r = eot then some .endOfCylinder
    else none

/-- What a record adds to the data if the run goes on. -/
def passedData : List UInt8 :=
  match t.answering id with
  | none => []
  | some s => if s.isDeleted = deleted then s.data else []

/-- What a record adds to the data if the run stops there. -/
def lastData : List UInt8 :=
  match t.answering id with
  | none => []
  | some s => if s.isDeleted = deleted ∨ skip = false then s.data else []

-- The bit for wrong marks that are met up to record `k`.
def markBit (k : Nat) : UInt8 :=
  if ∃ i ≤ k, t.WrongMark deleted (id.later i) then St2.controlMark else 0

/-- The read stops at record `k`, for a reason, and has found none before. -/
structure StopsAt (k : Nat) (stop : Stop) : Prop where
  reason : t.stop? deleted skip eot (id.later k) = some stop
  before : ∀ i < k, t.stop? deleted skip eot (id.later i) = none

/-- What a read yields that stops at record `k`. -/
def readTo (k : Nat) (stop : Stop) : ReadRun where
  data := (List.range k).flatMap (fun i => t.passedData deleted (id.later i)) ++
    t.lastData deleted skip (id.later k)
  st0 := stop.st0
  st1 := stop.st1
  st2 := t.markBit deleted id k ||| stop.st2
  id := stop.id (id.later k)

/-! ## One record -/

section Record

variable {t deleted skip eot id} {s : Sector} {stop : Stop}

theorem wrongMark_iff (h : t.answering id = some s) :
    t.WrongMark deleted id ↔ s.isDeleted ≠ deleted := by
  unfold WrongMark
  rw [h]
  constructor
  · rintro ⟨_, hs, hne⟩
    cases hs
    exact hne
  · intro hne
    exact ⟨s, rfl, hne⟩

theorem not_wrongMark (h : t.answering id = none) : ¬ t.WrongMark deleted id := by
  rintro ⟨s, hs, -⟩
  exact absurd (h.symm.trans hs) (Option.some_ne_none s).symm

theorem markBit_zero (t : Track) (deleted : Bool) (id : SectorId) :
    t.markBit deleted id 0 = if t.WrongMark deleted id then St2.controlMark else 0 := by
  unfold markBit
  have hone : (∃ i ≤ 0, t.WrongMark deleted (id.later i)) ↔ t.WrongMark deleted id := by
    constructor
    · rintro ⟨i, hi, h⟩
      rwa [Nat.le_zero.mp hi, id.later_zero] at h
    · intro h
      exact ⟨0, Nat.le_refl 0, id.later_zero.symm ▸ h⟩
  exact if_congr hone rfl rfl

theorem markBit_succ (t : Track) (deleted : Bool) (id : SectorId) (k : Nat) :
    t.markBit deleted id (k + 1) =
      t.markBit deleted id 0 ||| t.markBit deleted (nextRecord id) k := by
  have hsplit : (∃ i ≤ k + 1, t.WrongMark deleted (id.later i)) ↔
      t.WrongMark deleted id ∨ ∃ i ≤ k, t.WrongMark deleted ((nextRecord id).later i) := by
    constructor
    · rintro ⟨i, hi, h⟩
      cases i with
      | zero => exact .inl (id.later_zero ▸ h)
      | succ i => exact .inr ⟨i, Nat.le_of_succ_le_succ hi, id.later_succ i ▸ h⟩
    · rintro (h | ⟨i, hi, h⟩)
      · exact ⟨0, Nat.zero_le _, id.later_zero.symm ▸ h⟩
      · exact ⟨i + 1, Nat.succ_le_succ hi, (id.later_succ i).symm ▸ h⟩
  rw [markBit_zero]
  unfold markBit
  by_cases hfirst : t.WrongMark deleted id
  · rw [if_pos (hsplit.mpr (.inl hfirst)), if_pos hfirst]
    split <;> rfl
  · rw [if_neg hfirst, UInt8.zero_or]
    exact if_congr (hsplit.trans (or_iff_right hfirst)) rfl rfl

theorem stop?_none (h : t.answering id = none) :
    t.stop? deleted skip eot id = some .noData := by
  unfold stop?
  rw [h]

theorem stop?_some (h : t.answering id = some s) :
    t.stop? deleted skip eot id =
      if s.isDeleted ≠ deleted ∧ skip = false then some .controlMark
      else if s.hasDataError then some (.dataError s)
      else if id.r = eot then some .endOfCylinder
      else none := by
  unfold stop?
  rw [h]

theorem passedData_some (h : t.answering id = some s) :
    t.passedData deleted id = if s.isDeleted = deleted then s.data else [] := by
  unfold passedData
  rw [h]

theorem lastData_some (h : t.answering id = some s) :
    t.lastData deleted skip id = if s.isDeleted = deleted ∨ skip = false then s.data else [] := by
  unfold lastData
  rw [h]

theorem markBit_some (h : t.answering id = some s) :
    t.markBit deleted id 0 = if s.isDeleted ≠ deleted then St2.controlMark else 0 := by
  rw [markBit_zero]
  exact if_congr (wrongMark_iff h) rfl rfl

/-! ### What the controller does there -/

theorem readRun_missing (h : t.answering id = none) (following : Nat) :
    readRun t deleted skip following id =
      { data := [], st0 := St0.abnormal, st1 := St1.noData, id } := by
  unfold readRun
  rw [show t.find? id.c id.h id.r = none from h]

theorem readRun_controlMark (h : t.answering id = some s) (hmark : s.isDeleted ≠ deleted)
    (following : Nat) :
    readRun t deleted false following id = { data := s.data, st2 := St2.controlMark, id } := by
  unfold readRun
  rw [show t.find? id.c id.h id.r = some s from h]
  dsimp only
  rw [bne_iff_ne.mpr hmark]
  rfl

section Passed

variable (h : t.answering id = some s) (hpassed : ¬(s.isDeleted ≠ deleted ∧ skip = false))

include h hpassed

-- The mark is right, or the sector is skipped.
theorem readRun_passed (following : Nat) :
    readRun t deleted skip following id =
      if s.hasDataError then
        { data := t.passedData deleted id
          st0 := St0.abnormal
          st1 := s.st1 &&& St1.dataError
          st2 := t.markBit deleted id 0 ||| (s.st2 &&& St2.dataError)
          id }
      else
        match following with
        | 0 =>
          { data := t.passedData deleted id
            st0 := St0.abnormal
            st1 := St1.endOfCylinder
            st2 := t.markBit deleted id 0
            id := nextCylinder id }
        | later + 1 =>
          { readRun t deleted skip later (nextRecord id) with
            data := t.passedData deleted id ++ (readRun t deleted skip later (nextRecord id)).data
            st2 := t.markBit deleted id 0 |||
              (readRun t deleted skip later (nextRecord id)).st2 } := by
  rw [passedData_some h, markBit_some h]
  by_cases hmark : s.isDeleted = deleted
  · have hbit : (s.isDeleted != deleted) = false := bne_eq_false_iff_eq.mpr hmark
    rw [if_pos hmark, if_neg (not_not_intro hmark), readRun.eq_def,
      show t.find? id.c id.h id.r = some s from h]
    dsimp only
    rw [hbit]
    rfl
  · have hbit : (s.isDeleted != deleted) = true := bne_iff_ne.mpr hmark
    have hskip : skip = true := eq_true_of_ne_false fun hread => hpassed ⟨hmark, hread⟩
    rw [if_neg hmark, if_pos hmark, readRun.eq_def, show t.find? id.c id.h id.r = some s from h]
    dsimp only
    rw [hbit, hskip]
    rfl

theorem lastData_passed : t.lastData deleted skip id = t.passedData deleted id := by
  rw [lastData_some h, passedData_some h]
  by_cases hmark : s.isDeleted = deleted
  · rw [if_pos hmark, if_pos (.inl hmark)]
  · rw [if_neg hmark, if_neg]
    rintro (hright | hskip)
    · exact hmark hright
    · exact hpassed ⟨hmark, hskip⟩

end Passed

/-! ### One step of the run -/

-- The last record is the one that has none to follow it.
theorem readRun_of_stop {following : Nat} (hfollowing : (eot - id.r).toNat = following)
    (h : t.stop? deleted skip eot id = some stop) :
    readRun t deleted skip following id =
      { data := t.lastData deleted skip id
        st0 := stop.st0
        st1 := stop.st1
        st2 := t.markBit deleted id 0 ||| stop.st2
        id := stop.id id } := by
  cases hs : t.answering id with
  | none =>
    obtain rfl := Option.some.inj ((stop?_none hs).symm.trans h)
    rw [readRun_missing hs, markBit_zero, if_neg (not_wrongMark hs)]
    unfold lastData
    rw [hs]
    rfl
  | some s =>
    rw [stop?_some hs] at h
    split at h
    · rename_i hmark
      obtain rfl := Option.some.inj h
      obtain ⟨hmark, rfl⟩ := hmark
      rw [readRun_controlMark hs hmark, lastData_some hs, markBit_some hs, if_pos hmark,
        if_pos (.inr rfl)]
      rfl
    · rename_i hpassed
      rw [readRun_passed hs hpassed, lastData_passed hs hpassed]
      split at h
      · rename_i herror
        obtain rfl := Option.some.inj h
        rw [if_pos herror]
        rfl
      · rename_i hgood
        rw [if_neg hgood]
        split at h
        · rename_i hlast
          obtain rfl := Option.some.inj h
          rw [hlast, UInt8.sub_self] at hfollowing
          subst hfollowing
          show _ = ReadRun.mk _ _ _ (t.markBit deleted id 0 ||| 0) _
          rw [UInt8.or_zero]
          rfl
        · cases h

theorem readRun_of_goes_on {following : Nat} (hfollowing : (eot - id.r).toNat = following)
    (h : t.stop? deleted skip eot id = none) :
    ∃ later, following = later + 1 ∧ (eot - (nextRecord id).r).toNat = later ∧
      readRun t deleted skip following id =
        { readRun t deleted skip later (nextRecord id) with
          data := t.passedData deleted id ++ (readRun t deleted skip later (nextRecord id)).data
          st2 := t.markBit deleted id 0 |||
            (readRun t deleted skip later (nextRecord id)).st2 } := by
  cases hs : t.answering id with
  | none => exact absurd ((stop?_none hs).symm.trans h) (Option.some_ne_none _)
  | some s =>
    rw [stop?_some hs] at h
    by_cases hmark : s.isDeleted ≠ deleted ∧ skip = false
    · rw [if_pos hmark] at h
      cases h
    by_cases herror : s.hasDataError = true
    · rw [if_neg hmark, if_pos herror] at h
      cases h
    by_cases hlast : id.r = eot
    · rw [if_neg hmark, if_neg herror, if_pos hlast] at h
      cases h
    cases following with
    | zero => exact absurd (eq_of_toNat_sub_eq_zero hfollowing).symm hlast
    | succ later =>
      refine ⟨later, rfl, (toNat_sub_succ hfollowing).2, ?_⟩
      rw [readRun_passed hs hmark, if_neg herror]

end Record

/-! ## The run -/

section Run

variable {t deleted skip eot id} {k : Nat} {stop : Stop}

theorem stopsAt_zero (h : t.stop? deleted skip eot id = some stop) :
    t.StopsAt deleted skip eot id 0 stop where
  reason := id.later_zero.symm ▸ h
  before i hi := absurd hi (Nat.not_lt_zero i)

theorem StopsAt.succ (hfirst : t.stop? deleted skip eot id = none)
    (h : t.StopsAt deleted skip eot (nextRecord id) k stop) :
    t.StopsAt deleted skip eot id (k + 1) stop where
  reason := id.later_succ k ▸ h.reason
  before i hi := by
    cases i with
    | zero => exact id.later_zero.symm ▸ hfirst
    | succ i => exact id.later_succ i ▸ h.before i (Nat.lt_of_succ_lt_succ hi)

theorem readTo_zero (t : Track) (deleted skip : Bool) (id : SectorId) (stop : Stop) :
    t.readTo deleted skip id 0 stop =
      { data := t.lastData deleted skip id
        st0 := stop.st0
        st1 := stop.st1
        st2 := t.markBit deleted id 0 ||| stop.st2
        id := stop.id id } := by
  unfold readTo
  rw [id.later_zero]
  rfl

theorem readTo_succ (t : Track) (deleted skip : Bool) (id : SectorId) (k : Nat) (stop : Stop) :
    t.readTo deleted skip id (k + 1) stop =
      { t.readTo deleted skip (nextRecord id) k stop with
        data := t.passedData deleted id ++ (t.readTo deleted skip (nextRecord id) k stop).data
        st2 := t.markBit deleted id 0 ||| (t.readTo deleted skip (nextRecord id) k stop).st2 } := by
  have hpassed : (List.range (k + 1)).flatMap (fun i => t.passedData deleted (id.later i)) =
      t.passedData deleted id ++
        (List.range k).flatMap fun i => t.passedData deleted ((nextRecord id).later i) := by
    rw [List.range_succ_eq_map, List.flatMap_cons, List.flatMap_map, id.later_zero]
    exact congrArg (_ ++ ·) (List.flatMap_congr fun i _ => by rw [id.later_succ])
  unfold readTo
  rw [hpassed, id.later_succ, markBit_succ, List.append_assoc, UInt8.or_assoc]

-- The induction is over the records that are still to come.
theorem exists_stopsAt {following : Nat} (hfollowing : (eot - id.r).toNat = following) :
    ∃ k ≤ following, ∃ stop, t.StopsAt deleted skip eot id k stop ∧
      readRun t deleted skip following id = t.readTo deleted skip id k stop := by
  induction following using Nat.strongRecOn generalizing id with
  | ind following ih =>
    cases h : t.stop? deleted skip eot id with
    | some stop =>
      refine ⟨0, Nat.zero_le following, stop, stopsAt_zero h, ?_⟩
      rw [readTo_zero, readRun_of_stop hfollowing h]
    | none =>
      obtain ⟨later, rfl, hlater, hrun⟩ := readRun_of_goes_on hfollowing h
      obtain ⟨k, hk, stop, hstops, hrest⟩ := ih later (Nat.lt_succ_self later) hlater
      refine ⟨k + 1, Nat.succ_le_succ hk, stop, hstops.succ h, ?_⟩
      rw [hrun, hrest, readTo_succ]

theorem ofNat_injOn {r : UInt8} {i j : Nat} (hi : i < 256) (hj : j < 256)
    (h : r + UInt8.ofNat i = r + .ofNat j) : i = j := by
  have hnat := congrArg UInt8.toNat ((UInt8.add_right_inj r).mp h)
  rwa [UInt8.toNat_ofNat_of_lt' hi, UInt8.toNat_ofNat_of_lt' hj] at hnat

-- The records before the one that stops the run are different records of sectors on the track.
theorem StopsAt.le_length (h : t.StopsAt deleted skip eot id k stop) (hk : k ≤ 256) :
    k ≤ t.sectors.length := by
  have hnodup : ((List.range k).map fun i => (id.later i).r).Nodup := by
    apply List.Nodup.map_on _ List.nodup_range
    intro i hi j hj hr
    rw [List.mem_range] at hi hj
    exact ofNat_injOn (by omega) (by omega) hr
  have hsub : ((List.range k).map fun i => (id.later i).r) ⊆ t.sectors.map (·.id.r) := by
    intro r hr
    obtain ⟨i, hi, rfl⟩ := List.mem_map.mp hr
    cases hs : t.answering (id.later i) with
    | none =>
      have hgoes := h.before i (List.mem_range.mp hi)
      exact absurd ((stop?_none hs).symm.trans hgoes) (Option.some_ne_none _)
    | some s =>
      have hfind : t.sectors.find? (·.answers (id.later i).c (id.later i).h (id.later i).r) =
        some s := hs
      have hanswers := List.find?_some hfind
      have hr := (Sector.answers_iff.mp hanswers).2.2
      exact List.mem_map.mpr ⟨s, List.mem_of_find?_eq_some hfind, hr⟩
  have hle := (List.subperm_of_subset hnodup hsub).length_le
  rwa [List.length_map, List.length_range, List.length_map] at hle

-- A run has one place to stop and one reason.
theorem StopsAt.unique (h : t.StopsAt deleted skip eot id k stop) {k' : Nat} {stop' : Stop}
    (h' : t.StopsAt deleted skip eot id k' stop') : k = k' ∧ stop = stop' := by
  have hk : k = k' := by
    rcases Nat.lt_trichotomy k k' with hlt | heq | hgt
    · exact absurd ((h'.before k hlt).symm.trans h.reason) (Option.some_ne_none stop).symm
    · exact heq
    · exact absurd ((h.before k' hgt).symm.trans h'.reason) (Option.some_ne_none stop').symm
  subst hk
  exact ⟨rfl, Option.some.inj (h.reason.symm.trans h'.reason)⟩

end Run

/-! ## The bit for the mark -/

theorem markBit_and (t : Track) (deleted : Bool) (id : SectorId) (k : Nat) (stop : Stop) :
    (t.markBit deleted id k ||| stop.st2) &&& St2.controlMark ≠ 0 ↔
      ∃ i ≤ k, t.WrongMark deleted (id.later i) := by
  have hstop : stop.st2 &&& St2.controlMark = 0 := by
    cases stop with
    | dataError s =>
      show s.st2 &&& St2.dataError &&& St2.controlMark = 0
      rw [UInt8.and_assoc, show St2.dataError &&& St2.controlMark = 0 from rfl, UInt8.and_zero]
    | noData => rfl
    | controlMark => rfl
    | endOfCylinder => rfl
  rw [UInt8.or_and_mask, hstop, UInt8.or_zero]
  unfold markBit
  by_cases h : ∃ i ≤ k, t.WrongMark deleted (id.later i)
  · rw [if_pos h]
    exact iff_of_true (by decide) h
  · rw [if_neg h]
    exact iff_of_false (fun hne => hne rfl) h

end Track

namespace Floppy.Controller

variable {c : Controller} {op : UInt8} {parameters : List UInt8} {deleted : Bool} {tr : Transfer}
  {disk : Disk} {t : Track}

theorem execute_read (hop : Command.decode op = if deleted then .readDeletedData else .readData)
    (parameters : List UInt8) (c : Controller) :
    c.execute (op :: parameters) = c.readData deleted (.ofBytes (op :: parameters)) := by
  unfold execute
  rw [show parameter (op :: parameters) 0 = op from rfl, hop]
  cases deleted <;> rfl

theorem send_read (hidle : c.phase = .idle)
    (hop : Command.decode op = if deleted then .readDeletedData else .readData)
    (hparameters : parameters.length = 8) (htr : Transfer.ofBytes (op :: parameters) = tr)
    (hdisk : (c.drive tr.unit.drive).disk = some disk)
    (htrack : disk.track? (c.drive tr.unit.drive).cylinder.toNat tr.unit.head.toNat = some t)
    {run : ReadRun} (hrun : readRun t deleted tr.skip tr.following tr.id = run) :
    c.send (op :: parameters) = { c with
      phase :=
        if run.data.isEmpty then
          .result (resultBytes (tr.unit.st0 ||| run.st0) run.st1 run.st2 run.id)
        else
          .executionRead run.data
            (resultBytes (tr.unit.st0 ||| run.st0) run.st1 run.st2 run.id) } := by
  have hcommand : 1 + parameters.length = (Command.decode op).length := by
    rw [hop, hparameters]
    cases deleted <;> rfl
  rw [send_command hidle hcommand, execute_read hop, htr]
  unfold readData
  dsimp only
  rw [hdisk]
  dsimp only
  rw [htrack]
  dsimp only
  rw [hrun]
  split <;> rfl

theorem receive_read (hidle : c.phase = .idle) {data result : List UInt8} (hresult : result ≠ []) :
    receive (data ++ result).length
        { c with phase := if data.isEmpty then .result result else .executionRead data result } =
      (data ++ result, c) := by
  cases data with
  | nil =>
    have hreceive := receive_result (c := { c with phase := .result result }) rfl hresult
    exact hreceive.trans (congrArg (Prod.mk _) (with_idle hidle))
  | cons v data =>
    have hreceive := receive_executionRead
      (c := { c with phase := .executionRead (v :: data) result }) rfl (List.cons_ne_nil v data)
      hresult
    exact hreceive.trans (congrArg (Prod.mk _) (with_idle hidle))

/-- A track with a deleted sector between two plain ones, the second of which has a data error. -/
def mixedTrack : Track where
  gap3 := 0x2A
  filler := 0xE5
  sectors := [⟨⟨0, 0, 1, 2⟩, 0, 0, [1, 2]⟩, ⟨⟨0, 0, 2, 2⟩, 0, 0x40, [3]⟩,
    ⟨⟨0, 0, 3, 2⟩, 0x20, 0x20, [4, 5]⟩]

def mixedDisk : Disk where
  cylinders := 1
  sides := 1
  tracks := [some mixedTrack]
  extended := true

end Floppy.Controller

end AmstradCpc
