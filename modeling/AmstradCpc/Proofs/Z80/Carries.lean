import AmstradCpc.Word
import AmstradCpc.Z80.Alu
import Mathlib.Data.FinEnum

/-!
# Carries of sums and differences

The flags of an operation are joined from parts that keep to bits of their own, so each flag can be
read off the one part that has it. What `ADD`, `ADC`, `SUB` and `SBC` leave in carry, half carry and
subtract is what a sum or difference of numbers carries or borrows, of all bits for the one and of
the low four for the other.
-/

namespace AmstradCpc.Z80

/-! ## Reading a flag -/

section Flags

variable (x y k m : UInt8) (c : Bool)

theorem hasFlag_or : hasFlag (x ||| y) m = (hasFlag x m || hasFlag y m) := by
  have hzero : (x ||| y) &&& m = 0 ↔ x &&& m = 0 ∧ y &&& m = 0 := by
    rw [UInt8.or_and_mask, UInt8.or_eq_zero_iff]
  rw [Bool.eq_iff_iff]
  simp only [hasFlag, Bool.or_eq_true, bne_iff_ne, ne_eq, hzero]
  exact Decidable.not_and_iff_not_or_not

theorem hasFlag_flagIf : hasFlag (flagIf c k) m = (c && hasFlag k m) := by
  cases c <;> simp [flagIf, hasFlag]

-- A part that has not the bits of the flag, and one that has them.
theorem hasFlag_apart {k m : UInt8} (h : k &&& m = 0) : hasFlag k m = false := by
  rw [hasFlag, h]
  rfl

theorem hasFlag_own {k m : UInt8} (h : k &&& m ≠ 0) : hasFlag k m = true := bne_iff_ne.mpr h

theorem hasFlag_mask_apart {k m : UInt8} (h : k &&& m = 0) : hasFlag (x &&& k) m = false := by
  rw [hasFlag, UInt8.and_assoc, h, UInt8.and_zero]
  rfl

theorem hasFlag_mask_own : hasFlag (x &&& m) m = hasFlag x m := by
  rw [hasFlag, hasFlag, UInt8.and_assoc, UInt8.and_self]

theorem hasFlag_mask_within {k m : UInt8} (h : k &&& m = m) :
    hasFlag (x &&& k) m = hasFlag x m := by
  rw [hasFlag, hasFlag, UInt8.and_assoc, h]

-- Sign, zero and the undocumented bits are no carries.
theorem hasFlag_resultFlags {m : UInt8} (h : (Flag.sign ||| Flag.xy) &&& m = 0)
    (hz : Flag.zero &&& m = 0) : hasFlag (resultFlags x) m = false := by
  rw [resultFlags, hasFlag_or, hasFlag_mask_apart _ h, hasFlag_flagIf, hasFlag_apart hz,
    Bool.and_false]
  rfl

theorem zero_resultFlags : hasFlag (resultFlags x) Flag.zero = (x == 0) := by
  simp (disch := decide) [resultFlags, hasFlag_or, hasFlag_flagIf, hasFlag_mask_apart, hasFlag_own]

theorem hasFlag_half : ∀ x, hasFlag x Flag.half = x.toNat.testBit 4 := by decide +kernel

end Flags

/-! ## Sums -/

section Sums

variable (a b : UInt8) (c : Bool)

theorem toNat_carryIn : (if c then 1 else 0 : UInt8).toNat = c.toNat := by cases c <;> rfl

-- Bit 4 of a sum is that of the operands unless the digits below carry into it.
theorem half_sum :
    hasFlag (a ^^^ b ^^^ (a + b + (if c then 1 else 0))) Flag.half =
      decide (0x0F < a.toNat % 16 + b.toNat % 16 + c.toNat) := by
  have hc := Bool.toNat_lt c
  rw [hasFlag_half, UInt8.toNat_xor, UInt8.toNat_xor, Nat.testBit_xor, Nat.testBit_xor,
    UInt8.toNat_add, UInt8.toNat_add, toNat_carryIn]
  simp only [Nat.testBit_eq_decide_div_mod_eq]
  rw [Bool.eq_iff_iff]
  by_cases ha : a.toNat / 16 % 2 = 1 <;> by_cases hb : b.toNat / 16 % 2 = 1 <;>
    simp [ha, hb] <;> omega

theorem half_difference :
    hasFlag (a ^^^ b ^^^ (a - b - (if c then 1 else 0))) Flag.half =
      decide (a.toNat % 16 < b.toNat % 16 + c.toNat) := by
  have hc := Bool.toNat_lt c
  have ha := a.toNat_lt
  have hb := b.toNat_lt
  rw [hasFlag_half, UInt8.toNat_xor, UInt8.toNat_xor, Nat.testBit_xor, Nat.testBit_xor,
    UInt8.toNat_sub, UInt8.toNat_sub, toNat_carryIn]
  simp only [Nat.testBit_eq_decide_div_mod_eq]
  rw [Bool.eq_iff_iff]
  by_cases ha : a.toNat / 16 % 2 = 1 <;> by_cases hb : b.toNat / 16 % 2 = 1 <;>
    simp [ha, hb] <;> omega

theorem toNat_add8 : (add8 a b c).value.toNat = (a.toNat + b.toNat + c.toNat) % 0x100 := by
  simp only [add8, UInt8.toNat_add, toNat_carryIn]
  omega

theorem carry_add8 :
    hasFlag (add8 a b c).flags Flag.carry = decide (0xFF < a.toNat + b.toNat + c.toNat) := by
  simp (disch := decide) [add8, hasFlag_or, hasFlag_flagIf, hasFlag_resultFlags,
    hasFlag_mask_apart, hasFlag_apart, hasFlag_own]

theorem half_add8 : hasFlag (add8 a b c).flags Flag.half =
    decide (0x0F < a.toNat % 16 + b.toNat % 16 + c.toNat) := by
  simp (disch := decide) [add8, hasFlag_or, hasFlag_flagIf, hasFlag_resultFlags,
    hasFlag_mask_own, hasFlag_apart, half_sum]

theorem subtract_add8 : hasFlag (add8 a b c).flags Flag.subtract = false := by
  simp (disch := decide) [add8, hasFlag_or, hasFlag_flagIf, hasFlag_resultFlags,
    hasFlag_mask_apart, hasFlag_apart]

theorem toNat_sub8 :
    (sub8 a b c).value.toNat = (0x200 + a.toNat - b.toNat - c.toNat) % 0x100 := by
  have hc := Bool.toNat_lt c
  have ha := a.toNat_lt
  have hb := b.toNat_lt
  simp only [sub8, UInt8.toNat_sub, toNat_carryIn]
  omega

theorem carry_sub8 :
    hasFlag (sub8 a b c).flags Flag.carry = decide (a.toNat < b.toNat + c.toNat) := by
  simp (disch := decide) [sub8, hasFlag_or, hasFlag_flagIf, hasFlag_resultFlags,
    hasFlag_mask_apart, hasFlag_apart, hasFlag_own]

theorem half_sub8 : hasFlag (sub8 a b c).flags Flag.half =
    decide (a.toNat % 16 < b.toNat % 16 + c.toNat) := by
  simp (disch := decide) [sub8, hasFlag_or, hasFlag_flagIf, hasFlag_resultFlags,
    hasFlag_mask_own, hasFlag_apart, half_difference]

theorem subtract_sub8 : hasFlag (sub8 a b c).flags Flag.subtract = true := by
  simp (disch := decide) [sub8, hasFlag_or, hasFlag_own]

end Sums

end AmstradCpc.Z80
