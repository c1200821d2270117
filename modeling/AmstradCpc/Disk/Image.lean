import AmstradCpc.Disk
import AmstradCpc.Text.Bytes

/-!
# Disk images

The two flavours of disk image files. Both begin with a block of 256 bytes about the disk, which is
followed by a block for each track: 256 bytes about the track, among them eight about each sector,
and then the sectors' data. The standard flavour has one track size for the whole disk and one
sector size for each track; the extended flavour has a table of track sizes in units of 256 bytes,
zero where a track is not formatted, and a length for every sector.

`Disk.ofBytes` reads both, `Disk.toBytes` writes a disk in its own flavour. A file that ends early
keeps the tracks read so far, and the data it lacks reads as zeros.
-/

namespace AmstradCpc

/-- Why a file is not a disk image. -/
inductive DiskError
  | tooShort
  | unknownSignature
  | sideCount (n : UInt8)
  | missingTrackHeader
  deriving DecidableEq, Repr, Inhabited

def DiskError.message : DiskError → String
  | .tooShort => "disk image too short for its header"
  | .unknownSignature => "not a DSK image (unrecognised signature)"
  | .sideCount n => "unsupported side count " ++ toString n.toNat
  | .missingTrackHeader => "track block is missing its Track-Info header"

namespace DiskImage

/-- Bytes of the block about a disk, and of the one about a track. -/
def blockSize : Nat := 0x100

def standardHeader : List UInt8 := ascii "MV - CPCEMU Disk-File\r\nDisk-Info\r\n"

def extendedHeader : List UInt8 := ascii "EXTENDED CPC DSK File\r\nDisk-Info\r\n"

def trackHeader : List UInt8 := ascii "Track-Info\r\n"

/-- The name of the program that writes the image. -/
def creator : List UInt8 := ascii "emu-cpc"

/-- As many bytes of a header as tell the flavours apart. -/
def signatureSize : Nat := 8

/-! ## Reading -/

/-- The first `len` bytes, with zeros for those that are missing. -/
def takePadded (len : Nat) (bs : List UInt8) : List UInt8 := padTo len (bs.take len)

/-- Reads up to `count` sectors from their descriptors and the data behind the track's header. In a
standard image every sector has `size` bytes. -/
def readSectors (extended : Bool) (size : Nat) :
    Nat → List UInt8 → List UInt8 → List Sector
  | count + 1, c :: h :: r :: n :: st1 :: st2 :: lo :: hi :: descriptors, data =>
    let len := if extended then lo.toNat + 0x100 * hi.toNat else size
    { id := { c, h, r, n }, st1, st2, data := takePadded len data } ::
      readSectors extended size count descriptors (data.drop len)
  | _, _, _ => []

/-- Reads a track from its block, which may go on beyond the track. -/
def readTrack (extended : Bool) (block : List UInt8) : Except DiskError Track :=
  let header := block.take blockSize
  if !trackHeader.isPrefixOf header then .error .missingTrackHeader
  else
    let byte (i : Nat) : UInt8 := header.getD i 0
    let count := min (byte 0x15).toNat Disk.maxSectors
    .ok {
      gap3 := byte 0x16
      filler := byte 0x17
      sectors := readSectors extended (sectorSize (byte 0x14)) count (header.drop 0x18)
        (block.drop blockSize) }

/-- Reads one track for every size. A size of zero has no block, and a block whose header is not
complete has no track. -/
def readTracks (extended : Bool) : List Nat → List UInt8 → Except DiskError (List (Option Track))
  | [], _ => .ok []
  | size :: sizes, rest =>
    if size = 0 ∨ (rest.take blockSize).length < blockSize then do
      return none :: (← readTracks extended sizes (rest.drop size))
    else do
      let t ← readTrack extended rest
      return some t :: (← readTracks extended sizes (rest.drop size))

/-- The block size of every track, from the block about the disk. -/
def trackSizes (extended : Bool) (count : Nat) (header : List UInt8) : List Nat :=
  if extended then ((header.drop 0x34).take count).map fun b => b.toNat * blockSize
  else List.replicate count ((header.getD 0x32 0).toNat + 0x100 * (header.getD 0x33 0).toNat)

/-- Which flavour the file is of: whether it is extended. -/
def flavour? (header : List UInt8) : Option Bool :=
  if (extendedHeader.take signatureSize).isPrefixOf header then some true
  else if (standardHeader.take signatureSize).isPrefixOf header then some false
  else none

end DiskImage

namespace Disk

open DiskImage

/-- Reads a disk image. -/
def ofBytes (file : List UInt8) : Except DiskError Disk :=
  let header := file.take blockSize
  if header.length < blockSize then .error .tooShort
  else
    match flavour? header with
    | none => .error .unknownSignature
    | some extended =>
      let cylinders := min (header.getD 0x30 0).toNat maxCylinders
      let sides := header.getD 0x31 0
      if sides = 1 ∨ sides = 2 then do
        let sizes := trackSizes extended (cylinders * sides.toNat) header
        let tracks ← readTracks extended sizes (file.drop blockSize)
        return { cylinders, sides := sides.toNat, tracks, extended }
      else .error (.sideCount sides)

end Disk

/-! ## Writing -/

namespace DiskImage

/-- The descriptor of a sector. Only the extended flavour stores its length. -/
def descriptor (extended : Bool) (s : Sector) : List UInt8 :=
  [s.id.c, s.id.h, s.id.r, s.id.n, s.st1, s.st2] ++
    if extended then littleEndian s.data.length else [0, 0]

/-- The block of a track. Its size code is that of the first sector. -/
def trackBlock (extended : Bool) (cylinder side : Nat) (t : Track) : List UInt8 :=
  let n := match t.sectors with
    | [] => 2
    | s :: _ => s.id.n
  let header := padTo 0x10 trackHeader ++
    [cylinder.toUInt8, side.toUInt8, 0, 0, n, t.sectors.length.toUInt8, t.gap3, t.filler] ++
    t.sectors.flatMap (descriptor extended)
  padToBlock (padTo blockSize header ++ t.sectors.flatMap (·.data))

/-- The blocks of a disk's tracks, none where a track is not formatted. -/
def trackBlocks (d : Disk) : List (Option (List UInt8)) :=
  d.tracks.mapIdx fun i t => t.map (trackBlock d.extended (i / d.sides) (i % d.sides))

/-- The block about the disk, with the fields of its flavour from offset `0x32` on. -/
def diskBlock (d : Disk) (fields : List UInt8) : List UInt8 :=
  let signature := if d.extended then extendedHeader else standardHeader
  padTo blockSize (padTo 0x30 (signature ++ creator) ++
    [d.cylinders.toUInt8, d.sides.toUInt8] ++ fields)

/-- A track's entry in the table of an extended image. -/
def tableEntry (block : Option (List UInt8)) : UInt8 :=
  match block with
  | none => 0
  | some b => (b.length / blockSize).toUInt8

/-- The track size of a standard image: that of the largest track. -/
def standardSize (blocks : List (Option (List UInt8))) : Nat :=
  ((blocks.filterMap id).map List.length).max?.getD blockSize

end DiskImage

namespace Disk

open DiskImage

/-- Writes a disk in its own flavour. -/
def toBytes (d : Disk) : List UInt8 :=
  let blocks := trackBlocks d
  if d.extended then
    diskBlock d ([0, 0] ++ blocks.map tableEntry) ++ (blocks.filterMap id).flatten
  else
    let size := standardSize blocks
    diskBlock d (littleEndian size) ++ blocks.flatMap fun b => padTo size (b.getD [])

end Disk

end AmstradCpc
