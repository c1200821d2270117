import AmstradCpc.Text.Bytes
import AmstradCpc.Word

/-!
# Snapshots

A snapshot is the state of a machine between two frames: the registers of its chips, and its RAM. A
snapshot file has a header of 256 bytes and a dump of the RAM, whose size in KB the header tells.
Versions 1 to 3 differ in how many fields of the header are in use. `Snapshot.ofBytes` reads all of
them, and ignores what follows the dump; `Snapshot.toBytes` writes version 3.
-/

namespace AmstradCpc

/-- The CPU registers that a snapshot holds. A name with a prime is in the shadow set. -/
structure SnapshotCpu where
  a : UInt8 := 0
  f : UInt8 := 0
  b : UInt8 := 0
  c : UInt8 := 0
  d : UInt8 := 0
  e : UInt8 := 0
  h : UInt8 := 0
  l : UInt8 := 0
  a' : UInt8 := 0
  f' : UInt8 := 0
  b' : UInt8 := 0
  c' : UInt8 := 0
  d' : UInt8 := 0
  e' : UInt8 := 0
  h' : UInt8 := 0
  l' : UInt8 := 0
  r : UInt8 := 0
  i : UInt8 := 0
  iff1 : Bool := false
  iff2 : Bool := false
  ix : UInt16 := 0
  iy : UInt16 := 0
  sp : UInt16 := 0
  pc : UInt16 := 0
  im : UInt8 := 0
  deriving DecidableEq, Repr, Inhabited

/-- Dumps are compared byte by byte. -/
local instance decEqDump : DecidableEq ByteArray := fun s t =>
  decidable_of_iff (s.data = t.data) ByteArray.ext_iff.symm

structure Snapshot where
  /-- The version of the file it was read from, 1 to 3. -/
  version : UInt8 := 3
  cpu : SnapshotCpu := {}
  pen : UInt8 := 0
  inks : Vector UInt8 17 := .replicate 17 0
  romConfig : UInt8 := 0
  ramConfig : UInt8 := 0
  crtcSelected : UInt8 := 0
  crtcRegs : Vector UInt8 18 := .replicate 18 0
  romSelect : UInt8 := 0
  /-- Ports A, B and C of the parallel interface, and its control register. -/
  portA : UInt8 := 0
  portB : UInt8 := 0
  portC : UInt8 := 0
  ppiControl : UInt8 := 0
  psgSelected : UInt8 := 0
  psgRegs : Vector UInt8 16 := .replicate 16 0
  /-- The model; not in version 1. -/
  cpcType : UInt8 := 0
  /-- This and the following fields are in version 3 only. -/
  motor : Bool := false
  crtcType : UInt8 := 0
  lineCounter : UInt8 := 0
  intRequest : Bool := false
  ram : ByteArray := .empty
  deriving DecidableEq, Inhabited

/-- Why a file is not a snapshot. -/
inductive SnapshotError
  | tooShort (size : Nat)
  | badSignature
  | unsupportedVersion (v : UInt8)
  | truncatedRam (expected found : Nat)
  deriving DecidableEq, Repr, Inhabited

def SnapshotError.message : SnapshotError → String
  | .tooShort size =>
    "SNA file is " ++ toString size ++ " bytes, shorter than the 256-byte header"
  | .badSignature => "not an SNA snapshot (missing \"MV - SNA\")"
  | .unsupportedVersion v => "unsupported SNA version " ++ toString v.toNat
  | .truncatedRam expected found =>
    "SNA RAM dump truncated: header says " ++ toString expected ++ " bytes, file has " ++
      toString found

namespace Snapshot

def headerSize : Nat := 0x100

def signature : List UInt8 := ascii "MV - SNA"

/-- The version that is written. -/
def writtenVersion : UInt8 := 3

/-- Size of the dump in KB, as the header stores it. -/
def ramKb (s : Snapshot) : UInt16 := (s.ram.size / 1024).toUInt16

/-! ## Reading -/

/-- Byte `i` of a file, zero past its end. -/
@[inline] def byteAt (file : ByteArray) (i : Nat) : UInt8 :=
  if h : i < file.size then file.get i h else 0

def wordAt (file : ByteArray) (i : Nat) : UInt16 := word (byteAt file (i + 1)) (byteAt file i)

/-- Bytes `i` to `i + n - 1` of a file. -/
def bytesAt (file : ByteArray) (i n : Nat) : Vector UInt8 n := .ofFn fun k => byteAt file (i + k)

def readCpu (file : ByteArray) : SnapshotCpu where
  f := byteAt file 0x11
  a := byteAt file 0x12
  c := byteAt file 0x13
  b := byteAt file 0x14
  e := byteAt file 0x15
  d := byteAt file 0x16
  l := byteAt file 0x17
  h := byteAt file 0x18
  r := byteAt file 0x19
  i := byteAt file 0x1A
  iff1 := byteAt file 0x1B &&& 1 != 0
  iff2 := byteAt file 0x1C &&& 1 != 0
  ix := wordAt file 0x1D
  iy := wordAt file 0x1F
  sp := wordAt file 0x21
  pc := wordAt file 0x23
  im := byteAt file 0x25 &&& 3
  f' := byteAt file 0x26
  a' := byteAt file 0x27
  c' := byteAt file 0x28
  b' := byteAt file 0x29
  e' := byteAt file 0x2A
  d' := byteAt file 0x2B
  l' := byteAt file 0x2C
  h' := byteAt file 0x2D

/-- Reads the fields that every version has. -/
def readCommon (file : ByteArray) (version : UInt8) (ramSize : Nat) : Snapshot where
  version
  cpu := readCpu file
  pen := byteAt file 0x2E
  inks := bytesAt file 0x2F 17
  romConfig := byteAt file 0x40
  ramConfig := byteAt file 0x41
  crtcSelected := byteAt file 0x42
  crtcRegs := bytesAt file 0x43 18
  romSelect := byteAt file 0x55
  portA := byteAt file 0x56
  portB := byteAt file 0x57
  portC := byteAt file 0x58
  ppiControl := byteAt file 0x59
  psgSelected := byteAt file 0x5A
  psgRegs := bytesAt file 0x5B 16
  ram := file.extract headerSize (headerSize + ramSize)

/-- Adds the fields that later versions brought. -/
def readLater (file : ByteArray) (s : Snapshot) : Snapshot :=
  let s := if 2 ≤ s.version then { s with cpcType := byteAt file 0x6D } else s
  if 3 ≤ s.version then
    { s with
      motor := byteAt file 0x9C &&& 1 != 0
      crtcType := byteAt file 0xA4
      lineCounter := byteAt file 0xB3
      intRequest := byteAt file 0xB4 &&& 1 != 0 }
  else s

/-- Reads a snapshot file. -/
def ofBytes (file : ByteArray) : Except SnapshotError Snapshot :=
  if file.size < headerSize then .error (.tooShort file.size)
  else if (bytesAt file 0 8).toList ≠ signature then .error .badSignature
  else
    let version := byteAt file 0x10
    if version < 1 ∨ 3 < version then .error (.unsupportedVersion version)
    else
      let ramSize := (wordAt file 0x6B).toNat * 1024
      let found := file.size - headerSize
      if found < ramSize then .error (.truncatedRam ramSize found)
      else .ok (readLater file (readCommon file version ramSize))

/-! ## Writing -/

def bit (b : Bool) : UInt8 := if b then 1 else 0

def wordBytes (w : UInt16) : List UInt8 := [loByte w, hiByte w]

def gap (n : Nat) : List UInt8 := List.replicate n 0

def cpuBytes (c : SnapshotCpu) : List UInt8 :=
  [c.f, c.a, c.c, c.b, c.e, c.d, c.l, c.h, c.r, c.i, bit c.iff1, bit c.iff2] ++
    wordBytes c.ix ++ wordBytes c.iy ++ wordBytes c.sp ++ wordBytes c.pc ++
    [c.im, c.f', c.a', c.c', c.b', c.e', c.d', c.l', c.h']

def header (s : Snapshot) : List UInt8 :=
  signature ++ gap 8 ++ [writtenVersion] ++ cpuBytes s.cpu ++
    [s.pen] ++ s.inks.toList ++ [s.romConfig, s.ramConfig, s.crtcSelected] ++ s.crtcRegs.toList ++
    [s.romSelect, s.portA, s.portB, s.portC, s.ppiControl, s.psgSelected] ++ s.psgRegs.toList ++
    wordBytes s.ramKb ++ [s.cpcType] ++ gap 46 ++
    [bit s.motor] ++ gap 7 ++ [s.crtcType] ++ gap 14 ++ [s.lineCounter, bit s.intRequest] ++ gap 75

/-- Writes a snapshot as version 3. A part of a KB at the end of the RAM is dropped. -/
def toBytes (s : Snapshot) : ByteArray :=
  ⟨s.header.toArray⟩ ++ s.ram.extract 0 (s.ramKb.toNat * 1024)

theorem length_signature : signature.length = 8 := by
  simp [signature, ascii]

theorem length_cpuBytes (c : SnapshotCpu) : (cpuBytes c).length = 29 := by
  simp only [cpuBytes, wordBytes, List.length_append, List.length_cons, List.length_nil]

theorem length_header (s : Snapshot) : s.header.length = headerSize := by
  unfold header gap wordBytes
  simp only [List.length_append, length_signature, length_cpuBytes, List.length_replicate,
    Vector.length_toList]
  simp only [List.length_cons, List.length_nil, headerSize]

end Snapshot

end AmstradCpc
