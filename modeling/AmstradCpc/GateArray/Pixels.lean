/-!
# Pixels of a screen byte

How the bits of a byte of screen memory spread over its pixels: two pixels of four bits in mode 0,
four of two in mode 1, eight of one in mode 2. Mode 3 is mode 0 with only the two low bits of each
pen.
-/

namespace AmstradCpc.Pixels

/-- Bit `n` of a byte, as 0 or 1. -/
@[inline] def bit (b n : UInt8) : UInt8 := (b >>> n) &&& 1

/-- Pen of pixel `n` of the two in mode 0: the bits 7, 3, 5 and 1, or those below them. -/
def pen0 (b n : UInt8) : UInt8 :=
  bit b (7 - n) ||| (bit b (3 - n) <<< 1) ||| (bit b (5 - n) <<< 2) ||| (bit b (1 - n) <<< 3)

/-- Pen of pixel `n` of the four in mode 1. -/
def pen1 (b n : UInt8) : UInt8 := bit b (7 - n) ||| (bit b (3 - n) <<< 1)

/-- Pen of pixel `n` of the eight in mode 2. -/
def pen2 (b n : UInt8) : UInt8 := bit b (7 - n)

/-- The pens of a byte, from left to right. -/
def decode (mode b : UInt8) : List UInt8 :=
  match mode &&& 3 with
  | 0 => [pen0 b 0, pen0 b 1]
  | 1 => [pen1 b 0, pen1 b 1, pen1 b 2, pen1 b 3]
  | 2 => [pen2 b 0, pen2 b 1, pen2 b 2, pen2 b 3, pen2 b 4, pen2 b 5, pen2 b 6, pen2 b 7]
  | _ => [pen0 b 0 &&& 3, pen0 b 1 &&& 3]

/-- Pixels of a byte in a screen mode. -/
def count (mode : UInt8) : Nat :=
  match mode &&& 3 with
  | 1 => 4
  | 2 => 8
  | _ => 2

theorem length_decode (mode b : UInt8) : (decode mode b).length = count mode := by
  unfold decode count
  split <;> simp_all

end AmstradCpc.Pixels
