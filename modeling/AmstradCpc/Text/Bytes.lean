/-!
# Bytes of a file

The pieces that file formats are put together from: signatures, which are ASCII text, numbers of two
bytes, and zeros up to a boundary.
-/

namespace AmstradCpc

/-- The bytes of an ASCII text, one for each character. -/
def ascii (s : String) : List UInt8 := s.toList.map fun c => c.toNat.toUInt8

/-- Zeros up to a length; longer lists stay as they are. -/
def padTo (n : Nat) (bs : List UInt8) : List UInt8 := bs ++ List.replicate (n - bs.length) 0

/-- Zeros up to the next multiple of 256. -/
def padToBlock (bs : List UInt8) : List UInt8 := padTo ((bs.length + 0xFF) / 0x100 * 0x100) bs

/-- A 16-bit number, low byte first. -/
def littleEndian (n : Nat) : List UInt8 := [n.toUInt8, (n / 0x100).toUInt8]

theorem length_padTo (n : Nat) (bs : List UInt8) : (padTo n bs).length = max n bs.length := by
  simp only [padTo, List.length_append, List.length_replicate]
  omega

end AmstradCpc
