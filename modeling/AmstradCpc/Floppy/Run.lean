import AmstradCpc.Floppy.Command

/-!
# Runs of sectors

A transfer goes from record to record until it reaches the last record of the track, misses one, or
finds a reason to stop. The machine never tells the controller to stop, so a transfer that goes well
ends with "end of cylinder" too.
-/

namespace AmstradCpc.Floppy

/-- What reading a run yields: the bytes, the status bits to add, and the sector it ended at. -/
structure ReadRun where
  data : List UInt8
  st0 : UInt8 := 0
  st1 : UInt8 := 0
  st2 : UInt8 := 0
  id : SectorId
  deriving DecidableEq, Repr, Inhabited

/-- The next record, going round at 256. -/
def nextRecord (id : SectorId) : SectorId := { id with r := id.r + 1 }

/-- What a run that reaches the last record reports: the first record of the next cylinder. -/
def nextCylinder (id : SectorId) : SectorId := { id with c := id.c + 1, r := 1 }

/-- Reads from `id` on, with `following` records to go after it. `deleted` tells which kind of mark
is wanted. A sector with the other kind is passed over if `skip` is set; else it is read and the run
ends. A recorded data error ends the run after the sector's data. -/
def readRun (t : Track) (deleted skip : Bool) (following : Nat) (id : SectorId) : ReadRun :=
  match t.find? id.c id.h id.r with
  | none => { data := [], st0 := St0.abnormal, st1 := St1.noData, id }
  | some s =>
    let wrongMark := s.isDeleted != deleted
    if wrongMark && !skip then { data := s.data, st2 := St2.controlMark, id }
    else
      let data := if wrongMark then [] else s.data
      let mark := if wrongMark then St2.controlMark else 0
      if s.hasDataError then
        { data
          st0 := St0.abnormal
          st1 := s.st1 &&& St1.dataError
          st2 := mark ||| (s.st2 &&& St2.dataError)
          id }
      else
        match following with
        | 0 =>
          { data
            st0 := St0.abnormal
            st1 := St1.endOfCylinder
            st2 := mark
            id := nextCylinder id }
        | following + 1 =>
          let rest := readRun t deleted skip following (nextRecord id)
          { rest with data := data ++ rest.data, st2 := mark ||| rest.st2 }

/-- The sectors that a write from `id` on reaches, with `following` records to go after it. -/
def writeRun (t : Track) (following : Nat) (id : SectorId) : List Sector :=
  match t.find? id.c id.h id.r with
  | none => []
  | some s =>
    match following with
    | 0 => [s]
    | following + 1 => s :: writeRun t following (nextRecord id)

/-- Bytes that a run of sectors holds. -/
def runLength : List Sector → Nat
  | [] => 0
  | s :: run => s.data.length + runLength run

/-- Writes `bytes` over the sectors `targets` of a track, one after another. A sector that is gone
takes as many bytes as its size code says. -/
def writeSectors (d : Disk) (cylinder side : Nat) : List SectorId → List UInt8 → Disk
  | [], _ => d
  | id :: ids, bytes =>
    let len := match d.readSector cylinder side id with
      | some data => data.length
      | none => sectorSize id.n
    let d := (d.writeSector cylinder side id (bytes.take len)).getD d
    writeSectors d cylinder side ids (bytes.drop len)

/-- The sector identifications in the bytes of a format command, four for each. -/
def sectorIds : List UInt8 → List SectorId
  | c :: h :: r :: n :: rest => { c, h, r, n } :: sectorIds rest
  | _ => []

end AmstradCpc.Floppy
