/-!
# Disks

A disk has tracks, each at a cylinder and a side, and a formatted track has sectors, each with an
identification that need not agree with its place. Tracks are stored cylinder by cylinder, with the
sides of a cylinder next to each other.
-/

namespace AmstradCpc

/-- A sector's address mark: cylinder, head, record and size code. -/
structure SectorId where
  c : UInt8
  h : UInt8
  r : UInt8
  n : UInt8
  deriving DecidableEq, Repr, Inhabited

/-- Bytes in a sector with a size code. -/
def sectorSize (n : UInt8) : Nat := 128 <<< min n.toNat 6

structure Sector where
  id : SectorId
  /-- Errors recorded with the sector, as the controller's first status byte shows them. -/
  st1 : UInt8
  /-- The deleted mark and data errors, as the second status byte shows them. -/
  st2 : UInt8
  data : List UInt8
  deriving DecidableEq, Repr, Inhabited

namespace Sector

/-- The sector carries a deleted data mark. -/
def isDeleted (s : Sector) : Bool := s.st2 &&& 0x40 != 0

/-- A checksum error is recorded with the sector. -/
def hasDataError (s : Sector) : Bool := s.st1 &&& 0x20 != 0 || s.st2 &&& 0x20 != 0

/-- Overwrites the beginning of the data and drops what does not fit. The new data has a good
checksum and a plain mark. -/
def overwrite (s : Sector) (data : List UInt8) : Sector :=
  { s with
    st1 := s.st1 &&& ~~~0x20
    st2 := s.st2 &&& ~~~0x60
    data := data.take s.data.length ++ s.data.drop data.length }

/-- Whether the sector answers to a cylinder, head and record; the size code does not matter. -/
def answers (s : Sector) (c h r : UInt8) : Bool := s.id.c == c && s.id.h == h && s.id.r == r

end Sector

structure Track where
  gap3 : UInt8
  filler : UInt8
  sectors : List Sector
  deriving DecidableEq, Repr, Inhabited

namespace Track

/-- Index of the first sector that answers. -/
def findIdx? (t : Track) (c h r : UInt8) : Option Nat := t.sectors.findIdx? (·.answers c h r)

/-- The first sector that answers. -/
def find? (t : Track) (c h r : UInt8) : Option Sector := t.sectors.find? (·.answers c h r)

end Track

structure Disk where
  cylinders : Nat
  sides : Nat
  /-- One entry for every cylinder and side; none where the track is not formatted. -/
  tracks : List (Option Track)
  /-- The image stores a length for every track and sector. -/
  extended : Bool
  writeProtected : Bool := false
  /-- The disk changed since it was loaded or saved. -/
  modified : Bool := false
  deriving DecidableEq, Repr, Inhabited

namespace Disk

/-- The most sectors that an image can describe on a track. -/
def maxSectors : Nat := 29

/-- The most cylinders that an image can hold. -/
def maxCylinders : Nat := 84

/-- A disk without any formatted track, on one or two sides. -/
def unformatted (cylinders sides : Nat) : Disk :=
  let sides := max 1 (min sides 2)
  { cylinders, sides, tracks := List.replicate (cylinders * sides) none, extended := true }

def markSaved (d : Disk) : Disk := { d with modified := false }

/-! ## Places -/

/-- Where the track at a cylinder and side is stored. -/
def index (d : Disk) (cylinder side : Nat) : Nat := cylinder * d.sides + side

/-- The formatted track at a place. -/
def track? (d : Disk) (cylinder side : Nat) : Option Track :=
  if cylinder < d.cylinders ∧ side < d.sides then (d.tracks[d.index cylinder side]?).join else none

/-- The data of the sector that answers at a place. -/
def readSector (d : Disk) (cylinder side : Nat) (id : SectorId) : Option (List UInt8) := do
  let t ← d.track? cylinder side
  let s ← t.find? id.c id.h id.r
  return s.data

/-! ## Changes -/

/-- Overwrites the sector that answers at a place, if there is one. -/
def writeSector (d : Disk) (cylinder side : Nat) (id : SectorId) (data : List UInt8) :
    Option Disk := do
  let t ← d.track? cylinder side
  let i ← t.findIdx? id.c id.h id.r
  let t := { t with sectors := t.sectors.modify i (·.overwrite data) }
  return { d with tracks := d.tracks.set (d.index cylinder side) (some t), modified := true }

/-- The disk with more cylinders, unformatted ones, if `cylinder` lies past its end. -/
def growTo (d : Disk) (cylinder : Nat) : Disk :=
  if cylinder < d.cylinders then d
  else
    let count := (cylinder + 1) * d.sides
    { d with
      cylinders := cylinder + 1
      tracks := d.tracks ++ List.replicate (count - d.tracks.length) none }

/-- A fresh sector. -/
def freshSector (filler : UInt8) (id : SectorId) : Sector :=
  { id, st1 := 0, st2 := 0, data := List.replicate (sectorSize id.n) filler }

/-- Lays down a fresh track of the given sectors, as many as an image can describe. A cylinder or
side out of reach leaves the disk as it is. A track of its own layout needs the extended form. -/
def formatTrack (d : Disk) (cylinder side : Nat) (ids : List SectorId) (gap3 filler : UInt8) :
    Disk :=
  if cylinder < maxCylinders ∧ side < d.sides then
    let d := d.growTo cylinder
    let sectors := (ids.take maxSectors).map (freshSector filler)
    { d with
      tracks := d.tracks.set (d.index cylinder side) (some { gap3, filler, sectors })
      extended := true
      modified := true }
  else d

end Disk

end AmstradCpc
