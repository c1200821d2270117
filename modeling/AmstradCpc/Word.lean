/-!
# Bytes and 16-bit words

A word is a high and a low byte. `word` joins them, `hiByte` and `loByte` take them apart, and the
three undo each other. Displacements are bytes read as two's complement.
-/

namespace AmstradCpc

/-- The word with the given high and low byte. -/
@[inline] def word (hi lo : UInt8) : UInt16 := (hi.toUInt16 <<< 8) ||| lo.toUInt16

@[inline] def hiByte (w : UInt16) : UInt8 := (w >>> 8).toUInt8

@[inline] def loByte (w : UInt16) : UInt8 := w.toUInt8

/-- A byte read as a two's complement number, as a word. -/
@[inline] def signExtend (b : UInt8) : UInt16 :=
  if b < 0x80 then b.toUInt16 else b.toUInt16 ||| 0xFF00

theorem UInt8.or_and_mask (a b mask : UInt8) :
    (a ||| b) &&& mask = (a &&& mask) ||| (b &&& mask) := by
  apply UInt8.toNat_inj.mp
  simp only [UInt8.toNat_and, UInt8.toNat_or, Nat.and_or_distrib_right]

@[simp] theorem loByte_word (hi lo : UInt8) : loByte (word hi lo) = lo := by
  apply UInt8.eq_of_toBitVec_eq
  simp only [loByte, word, UInt16.toBitVec_toUInt8, UInt16.toBitVec_or, UInt16.toBitVec_shiftLeft,
    UInt8.toBitVec_toUInt16]
  ext i h
  simp

@[simp] theorem hiByte_word (hi lo : UInt8) : hiByte (word hi lo) = hi := by
  apply UInt8.eq_of_toBitVec_eq
  simp only [hiByte, word, UInt16.toBitVec_toUInt8, UInt16.toBitVec_or, UInt16.toBitVec_shiftLeft,
    UInt16.toBitVec_shiftRight, UInt8.toBitVec_toUInt16]
  ext i h
  have h8 : 8 + i < 16 := by omega
  simp [h8, BitVec.getLsbD_eq_getElem h]

@[simp] theorem word_hiByte_loByte (w : UInt16) : word (hiByte w) (loByte w) = w := by
  apply UInt16.eq_of_toBitVec_eq
  simp only [hiByte, loByte, word, UInt16.toBitVec_toUInt8, UInt16.toBitVec_or,
    UInt16.toBitVec_shiftLeft, UInt16.toBitVec_shiftRight, UInt8.toBitVec_toUInt16]
  ext i h
  by_cases hi : i < 8
  · simp [hi, BitVec.getLsbD_eq_getElem h]
  · have h1 : i - 8 < 8 := by omega
    have h2 : 8 + (i - 8) = i := by omega
    simp [hi, h1, h2, BitVec.getLsbD_eq_getElem h]

end AmstradCpc
