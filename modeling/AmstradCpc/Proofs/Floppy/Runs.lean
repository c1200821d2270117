import AmstradCpc.Floppy.Run
import AmstradCpc.Proofs.Disk.Overwrite
import Mathlib.Data.List.ReduceOption

/-!
# Runs of sectors, written and read

A transfer goes over a run of sectors (`Track.run`). Writing puts its bytes over the sectors of the
run (`writeSectors_eq`), and reading finds them there again and stops where writing stopped
(`readRun_overwriteAll`). No sector comes twice in a run, since its records go round at 256 at most
once.
-/

namespace AmstradCpc

open Floppy

namespace Track

/-- The records from `r` to the last, going round at 256. -/
def records (r last : UInt8) : List UInt8 :=
  (List.range ((last - r).toNat + 1)).map fun k => r + .ofNat k

/-- Indices of the sectors in the run from `id` on: those that answer to the records from its own to
the last, as far as none is missing. -/
def run (t : Track) (id : SectorId) (last : UInt8) : List Nat :=
  (((records id.r last).map (t.findIdx? id.c id.h)).takeWhile (·.isSome)).reduceOption

/-- Indices of the sectors that a run from `id` on reaches, with `following` records to go after
it. -/
def reach (t : Track) (following : Nat) (id : SectorId) : List Nat :=
  match t.findIdx? id.c id.h id.r with
  | none => []
  | some i =>
    match following with
    | 0 => [i]
    | following + 1 => i :: reach t following (nextRecord id)

/-- How a run without errors ends: the reason, and the sector that it reports. -/
def runEnd (t : Track) (following : Nat) (id : SectorId) : UInt8 × SectorId :=
  match t.findIdx? id.c id.h id.r with
  | none => (St1.noData, id)
  | some _ =>
    match following with
    | 0 => (St1.endOfCylinder, nextCylinder id)
    | following + 1 => runEnd t following (nextRecord id)

section Reach

variable {t : Track} {id : SectorId} {i : Nat}

theorem reach_none (h : t.findIdx? id.c id.h id.r = none) (following : Nat) :
    t.reach following id = [] := by
  unfold reach
  rw [h]

theorem reach_zero (h : t.findIdx? id.c id.h id.r = some i) : t.reach 0 id = [i] := by
  unfold reach
  rw [h]

theorem reach_succ (h : t.findIdx? id.c id.h id.r = some i) (following : Nat) :
    t.reach (following + 1) id = i :: t.reach following (nextRecord id) := by
  rw [reach, h]

theorem runEnd_none (h : t.findIdx? id.c id.h id.r = none) (following : Nat) :
    t.runEnd following id = (St1.noData, id) := by
  unfold runEnd
  rw [h]

theorem runEnd_zero (h : t.findIdx? id.c id.h id.r = some i) :
    t.runEnd 0 id = (St1.endOfCylinder, nextCylinder id) := by
  unfold runEnd
  rw [h]

theorem runEnd_succ (h : t.findIdx? id.c id.h id.r = some i) (following : Nat) :
    t.runEnd (following + 1) id = t.runEnd following (nextRecord id) := by
  rw [runEnd, h]

end Reach

-- A run ends at a record that is missing, or at the last, or goes on.
theorem run_induction (t : Track) {motive : Nat → SectorId → Prop}
    (missing : ∀ following id, t.findIdx? id.c id.h id.r = none → motive following id)
    (last : ∀ id i, t.findIdx? id.c id.h id.r = some i → motive 0 id)
    (more : ∀ following id i, t.findIdx? id.c id.h id.r = some i →
      motive following (nextRecord id) → motive (following + 1) id)
    (following : Nat) (id : SectorId) : motive following id := by
  induction following generalizing id with
  | zero =>
    cases h : t.findIdx? id.c id.h id.r with
    | none => exact missing 0 id h
    | some i => exact last id i h
  | succ following ih =>
    cases h : t.findIdx? id.c id.h id.r with
    | none => exact missing (following + 1) id h
    | some i => exact more following id i h (ih (nextRecord id))

/-! ## The sectors of a run -/

-- What a run reaches depends on where sectors are found alone.
theorem reach_congr {t t' : Track} (hfind : ∀ c h r, t'.findIdx? c h r = t.findIdx? c h r)
    (following : Nat) (id : SectorId) : t'.reach following id = t.reach following id := by
  induction following, id using run_induction t with
  | missing following id h => rw [reach_none h, reach_none ((hfind _ _ _).trans h)]
  | last id i h => rw [reach_zero h, reach_zero ((hfind _ _ _).trans h)]
  | more following id i h ih => rw [reach_succ h, reach_succ ((hfind _ _ _).trans h), ih]

theorem runEnd_congr {t t' : Track} (hfind : ∀ c h r, t'.findIdx? c h r = t.findIdx? c h r)
    (following : Nat) (id : SectorId) : t'.runEnd following id = t.runEnd following id := by
  induction following, id using run_induction t with
  | missing following id h => rw [runEnd_none h, runEnd_none ((hfind _ _ _).trans h)]
  | last id i h => rw [runEnd_zero h, runEnd_zero ((hfind _ _ _).trans h)]
  | more following id i h ih => rw [runEnd_succ h, runEnd_succ ((hfind _ _ _).trans h), ih]

theorem add_ofNat_succ (r : UInt8) (k : Nat) : r + .ofNat (k + 1) = r + 1 + .ofNat k := by
  rw [UInt8.ofNat_add, UInt8.add_comm (UInt8.ofNat k), ← UInt8.add_assoc]
  rfl

theorem map_range_succ (r : UInt8) (n : Nat) :
    (List.range (n + 1)).map (fun k => r + UInt8.ofNat k) =
      r :: (List.range n).map fun k => r + 1 + UInt8.ofNat k := by
  rw [List.range_succ_eq_map, List.map_cons, List.map_map]
  exact List.cons_eq_cons.mpr
    ⟨UInt8.add_zero r, List.map_congr_left fun k _ => add_ofNat_succ r k⟩

theorem run_eq_reach (t : Track) (id : SectorId) (last : UInt8) :
    t.run id last = t.reach (last - id.r).toNat id := by
  unfold run records
  induction (last - id.r).toNat, id using run_induction t with
  | missing following id h =>
    rw [map_range_succ, List.map_cons, h, reach_none h]
    rfl
  | last id i h =>
    rw [map_range_succ, List.map_cons, h, reach_zero h]
    rfl
  | more following id i h ih =>
    rw [map_range_succ, List.map_cons, h, reach_succ h, ← ih, List.takeWhile_cons_of_pos rfl,
      List.reduceOption_cons_of_some]
    rfl

-- Record `id.r + k` leads to the index.
theorem exists_of_mem_reach {t : Track} {following : Nat} {id : SectorId} {j : Nat}
    (h : j ∈ t.reach following id) :
    ∃ k ≤ following, ∃ s, t.sectors[j]? = some s ∧ s.id.r = id.r + .ofNat k := by
  have hfirst : ∀ {id : SectorId} {i : Nat}, t.findIdx? id.c id.h id.r = some i →
      ∃ s, t.sectors[i]? = some s ∧ s.id.r = id.r + .ofNat 0 := fun {id i} hi => by
    obtain ⟨s, hs, -, hanswers⟩ := exists_of_findIdx? hi
    exact ⟨s, hs, (Sector.answers_iff.mp hanswers).2.2.trans (UInt8.add_zero id.r).symm⟩
  induction following, id using run_induction t with
  | missing following id hi =>
    rw [reach_none hi] at h
    exact absurd h List.not_mem_nil
  | last id i hi =>
    rw [reach_zero hi] at h
    obtain rfl := List.mem_singleton.mp h
    exact ⟨0, Nat.le_refl 0, hfirst hi⟩
  | more following id i hi ih =>
    rw [reach_succ hi] at h
    rcases List.mem_cons.mp h with rfl | h
    · exact ⟨0, Nat.zero_le _, hfirst hi⟩
    · obtain ⟨k, hk, s, hs, hr⟩ := ih h
      exact ⟨k + 1, Nat.succ_le_succ hk, s, hs, hr.trans (add_ofNat_succ id.r k).symm⟩

-- From 256 records on the run would come back to the sector.
theorem not_mem_reach_nextRecord {t : Track} {id : SectorId} {i following : Nat}
    (hi : t.findIdx? id.c id.h id.r = some i) (h : following + 1 < 256) :
    i ∉ t.reach following (nextRecord id) := by
  intro hmem
  obtain ⟨s, hs, -, hanswers⟩ := exists_of_findIdx? hi
  obtain ⟨k, hk, s', hs', hr⟩ := exists_of_mem_reach hmem
  obtain rfl := Option.some.inj (hs.symm.trans hs')
  rw [(Sector.answers_iff.mp hanswers).2.2] at hr
  have hnat := congrArg UInt8.toNat hr
  rw [show (nextRecord id).r = id.r + 1 from rfl, UInt8.toNat_add, UInt8.toNat_add,
    UInt8.toNat_ofNat'] at hnat
  have := id.r.toNat_lt
  have hone : (1 : UInt8).toNat = 1 := rfl
  omega

theorem nodup_reach (t : Track) {following : Nat} (id : SectorId) (h : following < 256) :
    (t.reach following id).Nodup := by
  induction following, id using run_induction t with
  | missing following id hi =>
    rw [reach_none hi]
    exact List.nodup_nil
  | last id i hi =>
    rw [reach_zero hi]
    exact List.nodup_cons.mpr ⟨List.not_mem_nil, List.nodup_nil⟩
  | more following id i hi ih =>
    rw [reach_succ hi]
    exact List.nodup_cons.mpr ⟨not_mem_reach_nextRecord hi h, ih (by omega)⟩

/-! ## Reading -/

section Read

variable {t : Track} {id : SectorId}

theorem readRun_none (h : t.findIdx? id.c id.h id.r = none) (deleted skip : Bool)
    (following : Nat) :
    readRun t deleted skip following id =
      { data := [], st0 := St0.abnormal, st1 := St1.noData, id } := by
  unfold readRun
  rw [find?_of_findIdx?_eq_none h]

variable {s : Sector}

theorem readRun_zero (h : t.find? id.c id.h id.r = some s) (hmark : s.isDeleted = false)
    (herror : s.hasDataError = false) (skip : Bool) :
    readRun t false skip 0 id =
      { data := s.data, st0 := St0.abnormal, st1 := St1.endOfCylinder, id := nextCylinder id } := by
  unfold readRun
  rw [h]
  dsimp only
  rw [hmark, herror]
  rfl

theorem readRun_succ (h : t.find? id.c id.h id.r = some s) (hmark : s.isDeleted = false)
    (herror : s.hasDataError = false) (skip : Bool) (following : Nat) :
    readRun t false skip (following + 1) id =
      { readRun t false skip following (nextRecord id) with
        data := s.data ++ (readRun t false skip following (nextRecord id)).data } := by
  rw [readRun, h]
  dsimp only
  rw [hmark, herror]
  show ({ readRun t false skip following (nextRecord id) with
    data := s.data ++ (readRun t false skip following (nextRecord id)).data
    st2 := 0 ||| (readRun t false skip following (nextRecord id)).st2 } : ReadRun) = _
  rw [UInt8.zero_or]

end Read

theorem readRun_of_plain (t : Track) (skip : Bool) (following : Nat) (id : SectorId)
    (hplain : ∀ i ∈ t.reach following id, t.Plain i) :
    readRun t false skip following id =
      { data := (t.reach following id).flatMap t.sectorData
        st0 := St0.abnormal
        st1 := (t.runEnd following id).1
        st2 := 0
        id := (t.runEnd following id).2 } := by
  induction following, id using run_induction t with
  | missing following id h =>
    rw [readRun_none h, reach_none h, runEnd_none h]
    rfl
  | last id i h =>
    rw [reach_zero h] at hplain ⊢
    obtain ⟨s, hs, hfind, -⟩ := exists_of_findIdx? h
    obtain ⟨hmark, herror⟩ := hplain i List.mem_cons_self s hs
    rw [readRun_zero hfind hmark herror, runEnd_zero h, List.flatMap_singleton,
      sectorData_of_getElem? hs]
  | more following id i h ih =>
    rw [reach_succ h] at hplain ⊢
    obtain ⟨s, hs, hfind, -⟩ := exists_of_findIdx? h
    obtain ⟨hmark, herror⟩ := hplain i List.mem_cons_self s hs
    rw [readRun_succ hfind hmark herror, ih fun j hj => hplain j (List.mem_cons_of_mem i hj),
      runEnd_succ h, List.flatMap_cons, sectorData_of_getElem? hs]

theorem readRun_overwriteAll (t : Track) (skip : Bool) {following : Nat} (id : SectorId)
    {bytes : List UInt8} (hfollowing : following < 256)
    (hbytes : bytes.length = t.totalLength (t.reach following id)) :
    readRun (t.overwriteAll (t.reach following id) bytes) false skip following id =
      { data := bytes
        st0 := St0.abnormal
        st1 := (t.runEnd following id).1
        st2 := 0
        id := (t.runEnd following id).2 } := by
  have hfind := t.findIdx?_overwriteAll (t.reach following id) bytes
  have hreach := reach_congr hfind following id
  rw [readRun_of_plain _ skip following id, hreach, runEnd_congr hfind,
    flatMap_sectorData_overwriteAll (t.nodup_reach id hfollowing) t hbytes]
  intro i hi
  exact t.plain_overwriteAll (.inr (hreach ▸ hi)) bytes

/-! ## Writing -/

section Write

variable {t : Track} {id : SectorId}

theorem writeRun_none (h : t.findIdx? id.c id.h id.r = none) (following : Nat) :
    writeRun t following id = [] := by
  unfold writeRun
  rw [find?_of_findIdx?_eq_none h]

variable {s : Sector}

theorem writeRun_zero (h : t.find? id.c id.h id.r = some s) : writeRun t 0 id = [s] := by
  unfold writeRun
  rw [h]

theorem writeRun_succ (h : t.find? id.c id.h id.r = some s) (following : Nat) :
    writeRun t (following + 1) id = s :: writeRun t following (nextRecord id) := by
  rw [writeRun, h]

end Write

theorem runLength_writeRun (t : Track) (following : Nat) (id : SectorId) :
    runLength (writeRun t following id) = t.totalLength (t.reach following id) := by
  induction following, id using run_induction t with
  | missing following id h =>
    rw [writeRun_none h, reach_none h]
    rfl
  | last id i h =>
    obtain ⟨s, hs, hfind, -⟩ := exists_of_findIdx? h
    rw [writeRun_zero hfind, reach_zero h, totalLength_cons, sectorData_of_getElem? hs]
    rfl
  | more following id i h ih =>
    obtain ⟨s, hs, hfind, -⟩ := exists_of_findIdx? h
    rw [writeRun_succ hfind, reach_succ h, totalLength_cons, sectorData_of_getElem? hs, ← ih]
    rfl

/-- The sector that answers to the given identification is the one at the index. -/
def Finds (t : Track) (id : SectorId) (i : Nat) : Prop := t.findIdx? id.c id.h id.r = some i

-- A sector that answers to a record answers to its own identification.
theorem finds_id {t : Track} {id : SectorId} {i : Nat} {s : Sector}
    (h : t.findIdx? id.c id.h id.r = some i) (hs : s.answers id.c id.h id.r = true) :
    t.Finds s.id i := by
  obtain ⟨hc, hh, hr⟩ := Sector.answers_iff.mp hs
  unfold Finds
  rw [hc, hh, hr, h]

theorem finds_writeRun (t : Track) (following : Nat) (id : SectorId) :
    List.Forall₂ t.Finds ((writeRun t following id).map (·.id)) (t.reach following id) := by
  induction following, id using run_induction t with
  | missing following id h =>
    rw [writeRun_none h, reach_none h]
    exact .nil
  | last id i h =>
    obtain ⟨s, -, hfind, hs⟩ := exists_of_findIdx? h
    rw [writeRun_zero hfind, reach_zero h]
    exact .cons (finds_id h hs) .nil
  | more following id i h ih =>
    obtain ⟨s, -, hfind, hs⟩ := exists_of_findIdx? h
    rw [writeRun_succ hfind, reach_succ h]
    exact .cons (finds_id h hs) ih

theorem eq_of_toNat_sub_eq_zero {a b : UInt8} (h : (a - b).toNat = 0) : a = b := by
  rw [UInt8.toNat_sub] at h
  have ha := a.toNat_lt
  have hb := b.toNat_lt
  exact UInt8.toNat_inj.mp (by omega)

theorem toNat_sub_succ {a b : UInt8} {n : Nat} (h : (a - b).toNat = n + 1) :
    b ≠ a ∧ (a - (b + 1)).toNat = n := by
  have ha := a.toNat_lt
  have hb := b.toNat_lt
  have hone : (1 : UInt8).toNat = 1 := rfl
  rw [UInt8.toNat_sub] at h
  refine ⟨fun hba => ?_, ?_⟩
  · subst hba
    omega
  · rw [UInt8.toNat_sub, UInt8.toNat_add]
    omega

section Ends

variable {s : Sector} {id : SectorId}

theorem nextRecord_of_answers (h : s.answers id.c id.h id.r = true) :
    { nextRecord s.id with n := id.n } = nextRecord id := by
  obtain ⟨hc, hh, hr⟩ := Sector.answers_iff.mp h
  unfold nextRecord
  rw [hc, hh, hr]

theorem nextCylinder_of_answers (h : s.answers id.c id.h id.r = true) :
    { nextCylinder s.id with n := id.n } = nextCylinder id := by
  obtain ⟨hc, hh, -⟩ := Sector.answers_iff.mp h
  unfold nextCylinder
  rw [hc, hh]

end Ends

-- The last sector that a write reaches tells where reading the run will stop.
theorem runEnd_eq_of_last (t : Track) {id : SectorId} {i : Nat} {last : UInt8} (d : SectorId)
    (h : t.findIdx? id.c id.h id.r = some i) {following : Nat}
    (hfollowing : (last - id.r).toNat = following) :
    t.runEnd following id =
      if (((writeRun t following id).map (·.id)).getLastD d).r == last then
        (St1.endOfCylinder,
          { nextCylinder (((writeRun t following id).map (·.id)).getLastD d) with n := id.n })
      else
        (St1.noData,
          { nextRecord (((writeRun t following id).map (·.id)).getLastD d) with n := id.n }) := by
  induction following, id using run_induction t generalizing i d with
  | missing following id hi => exact absurd (h.symm.trans hi) (Option.some_ne_none i)
  | last id j hi =>
    obtain ⟨s, -, hfind, hs⟩ := exists_of_findIdx? hi
    have hr : s.id.r = last :=
      (Sector.answers_iff.mp hs).2.2.trans (eq_of_toNat_sub_eq_zero hfollowing).symm
    rw [writeRun_zero hfind, runEnd_zero hi]
    show _ = if s.id.r == last then (St1.endOfCylinder, { nextCylinder s.id with n := id.n })
      else (St1.noData, { nextRecord s.id with n := id.n })
    rw [if_pos (beq_iff_eq.mpr hr), nextCylinder_of_answers hs]
  | more following id j hi ih =>
    obtain ⟨s, -, hfind, hs⟩ := exists_of_findIdx? hi
    obtain ⟨hr, hrest⟩ := toNat_sub_succ hfollowing
    rw [writeRun_succ hfind, runEnd_succ hi, List.map_cons, List.getLastD_cons]
    cases hk : t.findIdx? (nextRecord id).c (nextRecord id).h (nextRecord id).r with
    | none =>
      rw [← (Sector.answers_iff.mp hs).2.2] at hr
      rw [writeRun_none hk, runEnd_none hk]
      show _ = if s.id.r == last then (St1.endOfCylinder, { nextCylinder s.id with n := id.n })
        else (St1.noData, { nextRecord s.id with n := id.n })
      rw [if_neg (mt beq_iff_eq.mp hr), nextRecord_of_answers hs]
    | some k => exact ih s.id hk hrest

end Track

namespace Floppy

/-! ## The disk after a write -/

theorem writeSectors_cons {d : Disk} {cylinder side : Nat} {t : Track}
    (h : d.track? cylinder side = some t) {id : SectorId} {i : Nat} (hi : t.Finds id i)
    (ids : List SectorId) (bytes : List UInt8) :
    writeSectors d cylinder side (id :: ids) bytes =
      writeSectors
        (d.setTrack cylinder side (t.overwrite i (bytes.take (t.sectorData i).length)))
        cylinder side ids (bytes.drop (t.sectorData i).length) := by
  obtain ⟨s, hs, hfind, -⟩ := Track.exists_of_findIdx? hi
  rw [writeSectors, Disk.readSector_eq h hfind, Track.sectorData_of_getElem? hs]
  dsimp only
  rw [Disk.writeSector_eq h hi]
  rfl

-- The induction is over the sectors to come; sectors are found as they were on `t` all along.
theorem writeSectors_setTrack {t t' : Track} {ids : List SectorId} {is : List Nat}
    (hfinds : List.Forall₂ t.Finds ids is)
    (hfind : ∀ c h r, t'.findIdx? c h r = t.findIdx? c h r) {d : Disk} {cylinder side : Nat}
    {old : Track} (h : d.track? cylinder side = some old) (bytes : List UInt8) :
    writeSectors (d.setTrack cylinder side t') cylinder side ids bytes =
      d.setTrack cylinder side (t'.overwriteAll is bytes) := by
  induction hfinds generalizing t' bytes with
  | nil => rfl
  | @cons id i ids is hi _ ih =>
    rw [writeSectors_cons (Disk.track?_setTrack_self h t') ((hfind _ _ _).trans hi),
      Disk.setTrack_setTrack, ih fun c h r => (t'.findIdx?_overwrite _ _ c h r).trans (hfind c h r)]
    rfl

theorem writeSectors_eq {d : Disk} {cylinder side : Nat} {t : Track}
    (h : d.track? cylinder side = some t) {ids : List SectorId} {is : List Nat}
    (hfinds : List.Forall₂ t.Finds ids is) (hids : ids ≠ []) (bytes : List UInt8) :
    writeSectors d cylinder side ids bytes =
      d.setTrack cylinder side (t.overwriteAll is bytes) := by
  cases hfinds with
  | nil => exact absurd rfl hids
  | cons hi hfinds =>
    rw [writeSectors_cons h hi, writeSectors_setTrack hfinds (t.findIdx?_overwrite _ _) h]
    rfl

end Floppy

end AmstradCpc
