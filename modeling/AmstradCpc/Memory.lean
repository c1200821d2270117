/-!
# Memory

The CPU sees four quadrants of 16 KB. Each has a bank to read from and a bank to write to: a window
of one of the buffers, which are the RAM, the lower ROM and up to 256 upper ROMs. Writes always go
to RAM, so a quadrant that shows a ROM writes to the RAM beneath it.

The RAM configuration puts four blocks of 16 KB into the quadrants. Blocks 0 to 3 are the first
64 KB; blocks 4 to 7 are a page of 64 KB picked by bits 5 to 3, or the first page if the RAM does
not reach that far. A machine with 64 KB ignores the configuration.

The banks are worked out by `Memory.remap`; a change of the ROM selection shows after it only.
-/

namespace AmstradCpc

/-- What a bank is a window of. -/
inductive Buffer
  | ram
  | lowerRom
  | upperRom (slot : UInt8)
  deriving DecidableEq, Repr, Inhabited

/-- A window of 16 KB, from an offset on. -/
structure Bank where
  buffer : Buffer
  offset : Nat
  deriving DecidableEq, Repr, Inhabited

/-- Why a memory cannot be built. -/
inductive MemoryError
  | ramSize (kb : Nat)
  | romMissing
  | romSize (size : Nat)
  | upperRomSize (slot : UInt8) (size : Nat)
  deriving DecidableEq, Repr, Inhabited

structure Memory where
  ram : ByteArray
  lowerRom : ByteArray
  /-- The upper ROMs; the one in slot 0 is BASIC. -/
  upperRoms : Vector (Option ByteArray) 256
  romSelect : UInt8 := 0
  readBanks : Vector Bank 4 := .replicate 4 ⟨.ram, 0⟩
  writeBanks : Vector Bank 4 := .replicate 4 ⟨.ram, 0⟩
  deriving Inhabited

namespace Memory

def bankSize : Nat := 0x4000

def minRamKb : Nat := 64

def maxRamKb : Nat := 576

end Memory

def MemoryError.message : MemoryError → String
  | .ramSize kb =>
    "RAM size must be a multiple of 64 KB between " ++ toString Memory.minRamKb ++ " and " ++
      toString Memory.maxRamKb ++ ", got " ++ toString kb
  | .romMissing => "system ROM missing"
  | .romSize size =>
    "system ROM must be " ++ toString (2 * Memory.bankSize) ++ " bytes (OS + BASIC), got " ++
      toString size
  | .upperRomSize slot size =>
    "upper ROM for slot " ++ toString slot.toNat ++ " is " ++ toString size ++
      " bytes, larger than 16K"

namespace Memory

/-! ## Banks -/

/-- The blocks that each RAM configuration puts into the quadrants. -/
def ramConfigs : Vector (Vector Nat 4) 8 :=
  #v[#v[0, 1, 2, 3], #v[0, 1, 2, 7], #v[4, 5, 6, 7], #v[0, 3, 2, 7],
    #v[0, 4, 2, 3], #v[0, 5, 2, 3], #v[0, 6, 2, 3], #v[0, 7, 2, 3]]

/-- The blocks in the quadrants of a memory with `size` bytes of RAM. -/
def blocks (size : Nat) (ramConfig : UInt8) : Vector Nat 4 :=
  if size ≤ 0x10000 then ramConfigs[0]
  else ramConfigs[ramConfig.toNat % 8]

/-- The page that blocks 4 to 7 come from. -/
def page (size : Nat) (ramConfig : UInt8) : Nat :=
  let page := ((ramConfig >>> 3) &&& 7).toNat
  if size < 0x10000 * (page + 2) then 0 else page

/-- Where a block begins in RAM. -/
def blockOffset (page block : Nat) : Nat :=
  if block < 4 then block * bankSize else 0x10000 * (page + 1) + (block - 4) * bankSize

/-- The RAM banks of a configuration. -/
def ramBanks (size : Nat) (ramConfig : UInt8) : Vector Bank 4 :=
  (blocks size ramConfig).map fun block => ⟨.ram, blockOffset (page size ramConfig) block⟩

/-- The upper ROM that shows while `slot` is selected: slot 0 stands in for an empty one. -/
def shownSlot (m : Memory) (slot : UInt8) : UInt8 :=
  if m.upperRoms[slot.toFin].isSome then slot else 0

/-- Works out the banks from the ROM configuration, whose bits 2 and 3 hide the lower and the upper
ROM, and the RAM configuration. -/
def remap (romConfig ramConfig : UInt8) (m : Memory) : Memory :=
  let banks := ramBanks m.ram.size ramConfig
  let lower := if romConfig &&& 0x04 == 0 then banks.set 0 ⟨.lowerRom, 0⟩ else banks
  let slot := m.shownSlot m.romSelect
  let read := if romConfig &&& 0x08 == 0 && m.upperRoms[slot.toFin].isSome then
    lower.set 3 ⟨.upperRom slot, 0⟩ else lower
  { m with readBanks := read, writeBanks := banks }

/-! ## Building -/

/-- A memory with so many KB of RAM, from a system ROM of 32 KB: the operating system and BASIC. -/
def build (ramKb : Nat) (systemRom : ByteArray) : Except MemoryError Memory :=
  if ramKb < minRamKb ∨ maxRamKb < ramKb ∨ ramKb % 64 ≠ 0 then .error (.ramSize ramKb)
  else if systemRom.isEmpty then .error .romMissing
  else if systemRom.size ≠ 2 * bankSize then .error (.romSize systemRom.size)
  else
    let basic := systemRom.extract bankSize (2 * bankSize)
    .ok <| remap 0 0 {
      ram := ⟨Array.replicate (ramKb * 1024) 0⟩
      lowerRom := systemRom.extract 0 bankSize
      upperRoms := (Vector.replicate 256 none).set 0 (some basic) }

/-- Puts an upper ROM into a slot. A short image is filled up with ones. -/
def loadUpperRom (slot : UInt8) (image : ByteArray) (m : Memory) : Except MemoryError Memory :=
  if bankSize < image.size then .error (.upperRomSize slot image.size)
  else
    let rom := image ++ ⟨Array.replicate (bankSize - image.size) 0xFF⟩
    .ok { m with upperRoms := m.upperRoms.set slot.toFin (some rom) }

/-- Selects an upper ROM, which shows after the next `remap`. -/
def selectUpperRom (slot : UInt8) (m : Memory) : Memory := { m with romSelect := slot }

/-! ## Access -/

/-- The quadrant of an address. -/
@[inline] def quadrant (a : UInt16) : Fin 4 :=
  ⟨a.toNat / 0x4000, by have := a.toNat_lt; omega⟩

/-- Where a bank puts an address in its buffer. -/
@[inline] def Bank.position (b : Bank) (a : UInt16) : Nat := b.offset + (a &&& 0x3FFF).toNat

def buffer (m : Memory) : Buffer → ByteArray
  | .ram => m.ram
  | .lowerRom => m.lowerRom
  | .upperRom slot => m.upperRoms[slot.toFin].getD .empty

/-- Reads as the CPU. Past the end of a buffer the bus floats high. -/
def read (m : Memory) (a : UInt16) : UInt8 :=
  let bank := m.readBanks[quadrant a]
  let i := Bank.position bank a
  let bytes := m.buffer bank.buffer
  if h : i < bytes.size then bytes.get i h else 0xFF

/-- Writes as the CPU. -/
def write (a : UInt16) (v : UInt8) (m : Memory) : Memory :=
  let i := Bank.position m.writeBanks[quadrant a] a
  if h : i < m.ram.size then { m with ram := m.ram.set i v h } else m

/-- Reads as the Gate Array, which fetches from the first 64 KB of RAM. -/
def videoRead (m : Memory) (a : UInt16) : UInt8 :=
  if h : a.toNat < m.ram.size then m.ram.get a.toNat h else 0

/-- Writes a byte of RAM, wherever it is banked. -/
def poke (i : Nat) (v : UInt8) (m : Memory) : Memory :=
  if h : i < m.ram.size then { m with ram := m.ram.set i v h } else m

/-- Replaces the RAM by an image, with zeros behind it up to the RAM's size. -/
def loadRam (image : ByteArray) (m : Memory) : Memory :=
  { m with ram := image ++ ⟨Array.replicate (m.ram.size - image.size) 0⟩ }

def ramKb (m : Memory) : Nat := m.ram.size / 1024

/-- The slots that hold an upper ROM. -/
def populatedSlots (m : Memory) : List UInt8 :=
  ((List.range 256).map Nat.toUInt8).filter fun slot => m.upperRoms[slot.toFin].isSome

end Memory

end AmstradCpc
