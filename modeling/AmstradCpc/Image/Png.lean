/-!
# PNG images

Images are written as PNG with eight bits for each of red, green and blue. The pixels are stored
without compression, in blocks of the deflate format, and without filters.
-/

namespace AmstradCpc.Png

/-! ## Checksums -/

/-- One step of the division behind the CRC, for a bit. -/
def crcBit (c : UInt32) : UInt32 := if c &&& 1 != 0 then (c >>> 1) ^^^ 0xEDB88320 else c >>> 1

/-- The CRC of every byte. -/
def crcTable : Vector UInt32 256 :=
  .ofFn fun n => (List.range 8).foldl (fun c _ => crcBit c) n.val.toUInt32

/-- The CRC with one byte more. -/
def crcByte (c : UInt32) (b : UInt8) : UInt32 := crcTable[(c.toUInt8 ^^^ b).toFin] ^^^ (c >>> 8)

/-- The CRC of the bytes. -/
def crc (bytes : ByteArray) : UInt32 := bytes.foldl crcByte 0xFFFFFFFF ^^^ 0xFFFFFFFF

/-- The checksum behind deflated data: the sum of the bytes, and the sum of those sums. -/
def adler (bytes : ByteArray) : UInt32 :=
  let (a, b) := bytes.foldl (fun (a, b) v =>
    let a := (a + v.toUInt32) % 65521
    (a, (b + a) % 65521)) ((1 : UInt32), (0 : UInt32))
  (b <<< 16) ||| a

/-! ## Layout -/

/-- A number of four bytes, high byte first. -/
def bigEndian (n : UInt32) : ByteArray :=
  ⟨#[(n >>> 24).toUInt8, (n >>> 16).toUInt8, (n >>> 8).toUInt8, n.toUInt8]⟩

/-- A chunk: its length, its kind and its data, and their CRC. -/
def chunk (kind : String) (data : ByteArray) : ByteArray :=
  let body := kind.toUTF8 ++ data
  bigEndian data.size.toUInt32 ++ body ++ bigEndian (crc body)

/-- Bytes in a block of stored data. -/
def blockSize : Nat := 0xFFFF

/-- A block of stored data: whether it is the last one, its length, the complement of the length,
and the data. -/
def storedBlock (last : Bool) (data : ByteArray) : ByteArray :=
  let n := data.size.toUInt16
  ⟨#[if last then 1 else 0, n.toUInt8, (n >>> 8).toUInt8,
      (~~~n).toUInt8, ((~~~n) >>> 8).toUInt8]⟩ ++
    data

/-- Data as a deflate stream of stored blocks. -/
def stored (data : ByteArray) : ByteArray :=
  let count := (data.size + blockSize - 1) / blockSize
  let blocks := (List.range count).foldl (fun out i =>
    out ++ storedBlock (i + 1 == count) (data.extract (i * blockSize) ((i + 1) * blockSize)))
    (⟨#[0x78, 0x01]⟩ : ByteArray)
  blocks ++ bigEndian (adler data)

/-- The rows of an image, each with the mark that it is not filtered. -/
def scanlines (width height : Nat) (rgb : ByteArray) : ByteArray :=
  (List.range height).foldl (fun out y =>
    out.push 0 ++ rgb.extract (y * width * 3) ((y + 1) * width * 3)) ByteArray.empty

/-- The header of an image. -/
def header (width height : Nat) : ByteArray :=
  bigEndian width.toUInt32 ++ bigEndian height.toUInt32 ++ ⟨#[8, 2, 0, 0, 0]⟩

/-- The file of an image whose pixels have three bytes each. -/
def encode (width height : Nat) (rgb : ByteArray) : ByteArray :=
  ⟨#[0x89, 0x50, 0x4E, 0x47, 0x0D, 0x0A, 0x1A, 0x0A]⟩ ++ chunk "IHDR" (header width height) ++
    chunk "IDAT" (stored (scanlines width height rgb)) ++ chunk "IEND" .empty

end AmstradCpc.Png
