import AmstradCpc.Proofs.Z80.Carries
import AmstradCpc.Word
import Mathlib.Data.Nat.Digits.Defs
import Mathlib.Tactic.LinearCombination

/-!
# Decimal arithmetic of any length

A byte packs two decimal digits. After an addition or a subtraction of packed bytes `DAA` makes the
result packed again and puts the decimal carry or borrow where the next byte takes it in, so numbers
of any length are added and subtracted byte by byte (`chain_eq_pack`).

The adjustment depends on the accumulator and three flags only; `decimalTable` has its results in
packed words, which `decimalAdjust_eq_table` reads back.
-/

namespace AmstradCpc.Z80

/-! ## The table of adjustments -/

/-- The row of the table for an accumulator and flags: carry, half carry and subtract are bits 8, 9
and 10. -/
def decimalRow (a f : UInt8) : Nat :=
  a.toNat ||| ((f &&& Flag.carry).toNat <<< 8) ||| (((f &&& Flag.half) >>> 4).toNat <<< 9) |||
    (((f &&& Flag.subtract) >>> 1).toNat <<< 10)

/-- The flags of a row. -/
def decimalFlags (row : Nat) : UInt8 :=
  flagIf (row.testBit 8) Flag.carry ||| flagIf (row.testBit 9) Flag.half |||
    flagIf (row.testBit 10) Flag.subtract

/-- The adjusted accumulator with the flags below it, for every row. -/
def decimalTable : Vector UInt16 2048 :=
  Vector.ofFn fun row =>
    let r := decimalAdjust (UInt8.ofNat row) (decimalFlags row)
    word r.value r.flags

section Table

variable (a f : UInt8)

theorem decimalRow_eq : decimalRow a f =
    a.toNat + 0x100 * (hasFlag f Flag.carry).toNat + 0x200 * (hasFlag f Flag.half).toNat +
      0x400 * (hasFlag f Flag.subtract).toNat := by
  have hcarry : ∀ f, (f &&& Flag.carry).toNat = (hasFlag f Flag.carry).toNat := by decide +kernel
  have hhalf : ∀ f, ((f &&& Flag.half) >>> 4).toNat = (hasFlag f Flag.half).toNat := by
    decide +kernel
  have hsubtract : ∀ f, ((f &&& Flag.subtract) >>> 1).toNat = (hasFlag f Flag.subtract).toNat := by
    decide +kernel
  have ha := a.toNat_lt
  have hc := Bool.toNat_lt (hasFlag f Flag.carry)
  have hh := Bool.toNat_lt (hasFlag f Flag.half)
  -- each part is below the lowest bit of the next one
  have hjoin {low k : Nat} (high : Nat) (h : low < 2 ^ k) :
      low ||| high <<< k = low + 2 ^ k * high := by
    rw [Nat.or_comm, ← Nat.shiftLeft_add_eq_or_of_lt h, Nat.shiftLeft_eq]
    ring
  rw [decimalRow, hcarry, hhalf, hsubtract, hjoin _ ha]
  rw [hjoin _ (show _ < 2 ^ 9 by omega)]
  rw [hjoin _ (show _ < 2 ^ 10 by omega)]
  rfl

theorem hasFlag_decimalFlags :
    hasFlag (decimalFlags (decimalRow a f)) Flag.carry = hasFlag f Flag.carry ∧
      hasFlag (decimalFlags (decimalRow a f)) Flag.half = hasFlag f Flag.half ∧
      hasFlag (decimalFlags (decimalRow a f)) Flag.subtract = hasFlag f Flag.subtract := by
  have ha := a.toNat_lt
  have hrow := decimalRow_eq a f
  have hcarry : (decimalRow a f).testBit 8 = hasFlag f Flag.carry := by
    rw [Nat.testBit_eq_decide_div_mod_eq, hrow]
    cases hasFlag f Flag.carry <;> cases hasFlag f Flag.half <;> simp <;> omega
  have hhalf : (decimalRow a f).testBit 9 = hasFlag f Flag.half := by
    rw [Nat.testBit_eq_decide_div_mod_eq, hrow]
    cases hasFlag f Flag.carry <;> cases hasFlag f Flag.half <;> simp <;> omega
  have hsubtract : (decimalRow a f).testBit 10 = hasFlag f Flag.subtract := by
    rw [Nat.testBit_eq_decide_div_mod_eq, hrow]
    cases hasFlag f Flag.carry <;> cases hasFlag f Flag.half <;>
      cases hasFlag f Flag.subtract <;> simp <;> omega
  rw [decimalFlags, hcarry, hhalf, hsubtract]
  cases hasFlag f Flag.carry <;> cases hasFlag f Flag.half <;> cases hasFlag f Flag.subtract <;>
    decide

/-- The adjustment is the one in the table. -/
theorem decimalAdjust_eq_table : ∃ _ : decimalRow a f < 2048,
    decimalAdjust a f =
      { value := hiByte decimalTable[decimalRow a f]
        flags := loByte decimalTable[decimalRow a f] } := by
  have ha := a.toNat_lt
  have hc := Bool.toNat_lt (hasFlag f Flag.carry)
  have hh := Bool.toNat_lt (hasFlag f Flag.half)
  have hs := Bool.toNat_lt (hasFlag f Flag.subtract)
  have hrow := decimalRow_eq a f
  have hacc : UInt8.ofNat (decimalRow a f) = a := by
    apply UInt8.toNat_inj.mp
    rw [UInt8.toNat_ofNat', hrow]
    omega
  obtain ⟨hcarry, hhalf, hsubtract⟩ := hasFlag_decimalFlags a f
  have hsame : decimalAdjust a (decimalFlags (decimalRow a f)) = decimalAdjust a f := by
    simp only [decimalAdjust, hcarry, hhalf, hsubtract]
  refine ⟨by omega, ?_⟩
  simp only [decimalTable, Vector.getElem_ofFn, hacc, hsame, hiByte_word, loByte_word]

end Table

/-! ## The adjustment in numbers -/

section Adjustment

variable (a f : UInt8)

theorem toNat_low : (a &&& 0x0F).toNat = a.toNat % 16 := by
  rw [UInt8.toNat_and]
  exact Nat.and_two_pow_sub_one_eq_mod a.toNat 4

/-- The adjustment of the low digit: what a carry or an excess over 9 asks for. -/
def lowAdjustment : Nat := if hasFlag f Flag.half = true ∨ 9 < a.toNat % 16 then 0x06 else 0

/-- The adjustment of the high digit. -/
def highAdjustment : Nat := if hasFlag f Flag.carry = true ∨ 0x99 < a.toNat then 0x60 else 0

theorem toNat_correction :
    (flagIf (hasFlag f Flag.half || a &&& 0x0F > 9) 0x06 |||
      flagIf (hasFlag f Flag.carry || a > 0x99) 0x60).toNat =
        lowAdjustment a f + highAdjustment a f := by
  have hlow : a &&& 0x0F > 9 ↔ 9 < a.toNat % 16 := by
    rw [gt_iff_lt, UInt8.lt_iff_toNat_lt, toNat_low]
    rfl
  have hhigh : a > 0x99 ↔ 0x99 < a.toNat := UInt8.lt_iff_toNat_lt
  simp only [lowAdjustment, highAdjustment, flagIf, Bool.or_eq_true, decide_eq_true_eq, hlow, hhigh]
  split <;> split <;> rfl

theorem toNat_decimalAdjust_of_sum (h : hasFlag f Flag.subtract = false) :
    (decimalAdjust a f).value.toNat =
      (a.toNat + (lowAdjustment a f + highAdjustment a f)) % 0x100 := by
  simp only [decimalAdjust, h, Bool.false_eq_true, if_false, UInt8.toNat_add, toNat_correction]

theorem toNat_decimalAdjust_of_difference (h : hasFlag f Flag.subtract = true) :
    (decimalAdjust a f).value.toNat =
      (0x100 - (lowAdjustment a f + highAdjustment a f) + a.toNat) % 0x100 := by
  simp only [decimalAdjust, h, if_true, UInt8.toNat_sub, toNat_correction]

-- The carry tells whether the high digit was adjusted.
theorem highAdjustment_eq :
    highAdjustment a f = 0x60 * (hasFlag (decimalAdjust a f).flags Flag.carry).toNat := by
  have hcarry : hasFlag (decimalAdjust a f).flags Flag.carry =
      (hasFlag f Flag.carry || decide (0x99 < a.toNat)) := by
    have hhigh : decide (a > 0x99) = decide (0x99 < a.toNat) :=
      decide_eq_decide.mpr UInt8.lt_iff_toNat_lt
    simp (disch := decide) [decimalAdjust, parityFlags, hasFlag_or, hasFlag_flagIf, hhigh,
      hasFlag_resultFlags, hasFlag_apart, hasFlag_own]
  rw [hcarry, highAdjustment]
  by_cases hhigh : 0x99 < a.toNat <;> cases hasFlag f Flag.carry <;> simp [hhigh]

end Adjustment

/-! ## Packed bytes -/

/-- Both digits of the byte are decimal. -/
def Packed (b : UInt8) : Prop := b.toNat / 16 ≤ 9 ∧ b.toNat % 16 ≤ 9

instance (b : UInt8) : Decidable (Packed b) := inferInstanceAs (Decidable (_ ∧ _))

/-- The number that a byte packs. -/
def decimal (b : UInt8) : Nat := b.toNat / 16 * 10 + b.toNat % 16

section Bytes

variable {a b : UInt8} (c : Bool)

-- After a sum the low digit is adjusted when it is above 9, and the high one when the sum of the
-- packed numbers has three digits.
theorem adjustments_sum (ha : Packed a) (hb : Packed b) :
    lowAdjustment (add8 a b c).value (add8 a b c).flags =
        (if 9 < a.toNat % 16 + b.toNat % 16 + c.toNat then 0x06 else 0) ∧
      highAdjustment (add8 a b c).value (add8 a b c).flags =
        if 99 < decimal a + decimal b + c.toNat then 0x60 else 0 := by
  have hc := Bool.toNat_lt c
  obtain ⟨hahigh, halow⟩ := ha
  obtain ⟨hbhigh, hblow⟩ := hb
  simp only [lowAdjustment, highAdjustment, half_add8, carry_add8, toNat_add8, decide_eq_true_eq,
    decimal]
  constructor
  · congr 1
    rw [eq_iff_iff]
    omega
  · congr 1
    rw [eq_iff_iff]
    omega

theorem Packed.adjusted_sum (ha : Packed a) (hb : Packed b) :
    let d := decimalAdjust (add8 a b c).value (add8 a b c).flags
    Packed d.value ∧
      decimal d.value + 100 * (hasFlag d.flags Flag.carry).toNat =
        decimal a + decimal b + c.toNat := by
  intro d
  have hc := Bool.toNat_lt c
  obtain ⟨hlow, hhigh⟩ := adjustments_sum c ha hb
  have hvalue := toNat_decimalAdjust_of_sum (add8 a b c).value _ (subtract_add8 a b c)
  have hcarry := highAdjustment_eq (add8 a b c).value (add8 a b c).flags
  rw [hlow, hhigh, toNat_add8] at hvalue
  rw [hhigh] at hcarry
  obtain ⟨hahigh, halow⟩ := ha
  obtain ⟨hbhigh, hblow⟩ := hb
  by_cases hl : 9 < a.toNat % 16 + b.toNat % 16 + c.toNat <;>
    by_cases hh : 99 < decimal a + decimal b + c.toNat <;>
    simp only [hl, hh, if_true, if_false] at hvalue hcarry <;>
    simp only [Packed, decimal, d, hvalue] at hh ⊢ <;> omega

theorem adjustments_difference (ha : Packed a) (hb : Packed b) :
    lowAdjustment (sub8 a b c).value (sub8 a b c).flags =
        (if a.toNat % 16 < b.toNat % 16 + c.toNat then 0x06 else 0) ∧
      highAdjustment (sub8 a b c).value (sub8 a b c).flags =
        if decimal a < decimal b + c.toNat then 0x60 else 0 := by
  have hc := Bool.toNat_lt c
  obtain ⟨hahigh, halow⟩ := ha
  obtain ⟨hbhigh, hblow⟩ := hb
  simp only [lowAdjustment, highAdjustment, half_sub8, carry_sub8, toNat_sub8, decide_eq_true_eq,
    decimal]
  constructor
  · congr 1
    rw [eq_iff_iff]
    omega
  · congr 1
    rw [eq_iff_iff]
    omega

theorem Packed.adjusted_difference (ha : Packed a) (hb : Packed b) :
    let d := decimalAdjust (sub8 a b c).value (sub8 a b c).flags
    Packed d.value ∧
      decimal d.value + decimal b + c.toNat =
        decimal a + 100 * (hasFlag d.flags Flag.carry).toNat := by
  intro d
  have hc := Bool.toNat_lt c
  obtain ⟨hlow, hhigh⟩ := adjustments_difference c ha hb
  have hvalue := toNat_decimalAdjust_of_difference (sub8 a b c).value _ (subtract_sub8 a b c)
  have hcarry := highAdjustment_eq (sub8 a b c).value (sub8 a b c).flags
  rw [hlow, hhigh, toNat_sub8] at hvalue
  rw [hhigh] at hcarry
  obtain ⟨hahigh, halow⟩ := ha
  obtain ⟨hbhigh, hblow⟩ := hb
  by_cases hl : a.toNat % 16 < b.toNat % 16 + c.toNat <;>
    by_cases hh : decimal a < decimal b + c.toNat <;>
    simp only [hl, hh, if_true, if_false] at hvalue hcarry <;>
    simp only [Packed, decimal, d, hvalue] at hh ⊢ <;> omega

end Bytes

/-! ## Numbers of many bytes -/

/-- The number that some bytes pack, the lowest byte first. -/
def number (bytes : List UInt8) : Nat := Nat.ofDigits 100 (bytes.map decimal)

/-- The lowest `n` pairs of digits of a number, packed. -/
def pack : Nat → Nat → List UInt8
  | 0, _ => []
  | n + 1, v => UInt8.ofNat (v / 10 % 10 * 16 + v % 10) :: pack n (v / 100)

theorem number_nil : number [] = 0 := rfl

theorem number_cons (b : UInt8) (bytes : List UInt8) :
    number (b :: bytes) = decimal b + 100 * number bytes := by
  simp [number, Nat.ofDigits_cons]

theorem Packed.decimal_lt {b : UInt8} (hb : Packed b) : decimal b < 100 := by
  obtain ⟨hhigh, hlow⟩ := hb
  unfold decimal
  omega

theorem number_lt {bytes : List UInt8} (h : ∀ b ∈ bytes, Packed b) :
    number bytes < 100 ^ bytes.length := by
  induction bytes with
  | nil => exact Nat.one_pos
  | cons b bytes ih =>
    obtain ⟨hb, hbytes⟩ := List.forall_mem_cons.mp h
    have hdecimal := hb.decimal_lt
    have hnumber := ih hbytes
    rw [number_cons, List.length_cons, Nat.pow_succ]
    omega

-- Packing undoes reading.
theorem pack_number {bytes : List UInt8} (h : ∀ b ∈ bytes, Packed b) :
    pack bytes.length (number bytes) = bytes := by
  induction bytes with
  | nil => rfl
  | cons b bytes ih =>
    obtain ⟨hb, hbytes⟩ := List.forall_mem_cons.mp h
    have hdecimal := hb.decimal_lt
    obtain ⟨hhigh, hlow⟩ := hb
    have hbyte :
        UInt8.ofNat (number (b :: bytes) / 10 % 10 * 16 + number (b :: bytes) % 10) = b := by
      apply UInt8.toNat_inj.mp
      rw [UInt8.toNat_ofNat', number_cons]
      unfold decimal at *
      omega
    have hrest : number (b :: bytes) / 100 = number bytes := by
      rw [number_cons]
      omega
    rw [List.length_cons, pack, hbyte, hrest, ih hbytes]

/-! ## Chains -/

/-- An accumulator operation with `DAA` behind it. -/
def adjusted (op : AluOp) (a b f : UInt8) : AluResult :=
  let r := op.apply a b f
  decimalAdjust r.value r.flags

/-- Works through two numbers from the lowest byte up, with `first` on that one and `next` on the
others, each adjusted. Returns the bytes and the last flags. -/
def chain (first next : AluOp) : List UInt8 → List UInt8 → UInt8 → List UInt8 × UInt8
  | a :: as, b :: bs, f =>
    let r := adjusted first a b f
    let rest := chain next next as bs r.flags
    (r.value :: rest.1, rest.2)
  | _, _, f => ([], f)

/-- With the flags `f`, the operation adds packed bytes and `c` if the sign is 1, and subtracts them
if it is -1: the result is packed, and the carry counts 100 on the side of what was added or
taken. -/
def Combines (sign : Int) (op : AluOp) (f : UInt8) (c : Bool) : Prop :=
  ∀ a b, Packed a → Packed b →
    Packed (adjusted op a b f).value ∧
      decimal (adjusted op a b f).value +
          sign * (100 * (hasFlag (adjusted op a b f).flags Flag.carry).toNat) =
        decimal a + sign * (decimal b + c.toNat)

section Chains

variable (f : UInt8)

theorem combines_adc : Combines 1 .adc f (hasFlag f Flag.carry) := by
  intro a b ha hb
  obtain ⟨hpacked, hsum⟩ := Packed.adjusted_sum (hasFlag f Flag.carry) ha hb
  refine ⟨hpacked, ?_⟩
  simp only [adjusted, AluOp.apply]
  omega

theorem combines_add : Combines 1 .add f false := by
  intro a b ha hb
  obtain ⟨hpacked, hsum⟩ := Packed.adjusted_sum false ha hb
  refine ⟨hpacked, ?_⟩
  simp only [adjusted, AluOp.apply]
  omega

theorem combines_sbc : Combines (-1) .sbc f (hasFlag f Flag.carry) := by
  intro a b ha hb
  obtain ⟨hpacked, hdifference⟩ := Packed.adjusted_difference (hasFlag f Flag.carry) ha hb
  refine ⟨hpacked, ?_⟩
  simp only [adjusted, AluOp.apply]
  omega

theorem combines_sub : Combines (-1) .sub f false := by
  intro a b ha hb
  obtain ⟨hpacked, hdifference⟩ := Packed.adjusted_difference false ha hb
  refine ⟨hpacked, ?_⟩
  simp only [adjusted, AluOp.apply]
  omega

-- The carry of each byte is what the next one takes in, and it counts 100 there.
theorem number_chain {sign : Int} {first next : AluOp} {c : Bool} {xs ys : List UInt8}
    (hfirst : Combines sign first f c) (hnext : ∀ f, Combines sign next f (hasFlag f Flag.carry))
    (hempty : xs = [] → c = hasFlag f Flag.carry) (hlength : xs.length = ys.length)
    (hx : ∀ b ∈ xs, Packed b) (hy : ∀ b ∈ ys, Packed b) :
    (chain first next xs ys f).1.length = xs.length ∧
      (∀ b ∈ (chain first next xs ys f).1, Packed b) ∧
      number (chain first next xs ys f).1 +
          sign * (100 ^ xs.length * (hasFlag (chain first next xs ys f).2 Flag.carry).toNat) =
        number xs + sign * (number ys + c.toNat) := by
  induction xs generalizing first ys f c with
  | nil =>
    obtain rfl := List.eq_nil_of_length_eq_zero hlength.symm
    simp [chain, number_nil, hempty rfl]
  | cons a xs ih =>
    cases ys with
    | nil => cases hlength
    | cons b ys =>
      obtain ⟨ha, hx⟩ := List.forall_mem_cons.mp hx
      obtain ⟨hb, hy⟩ := List.forall_mem_cons.mp hy
      obtain ⟨hpacked, hvalue⟩ := hfirst a b ha hb
      obtain ⟨hlen, hall, hrest⟩ := ih (adjusted first a b f).flags (hnext _) (fun _ => rfl)
        (Nat.succ.inj hlength) hx hy
      refine ⟨congrArg Nat.succ hlen, List.forall_mem_cons.mpr ⟨hpacked, hall⟩, ?_⟩
      simp only [chain, number_cons, List.length_cons, pow_succ]
      push_cast
      linear_combination hvalue + 100 * hrest

variable {c : Bool} {xs ys : List UInt8}

theorem chain_sum {first : AluOp} (hfirst : Combines 1 first f c)
    (hempty : xs = [] → c = hasFlag f Flag.carry) (hlength : xs.length = ys.length)
    (hx : ∀ b ∈ xs, Packed b) (hy : ∀ b ∈ ys, Packed b) :
    (chain first .adc xs ys f).1 =
        pack xs.length ((number xs + number ys + c.toNat) % 100 ^ xs.length) ∧
      (hasFlag (chain first .adc xs ys f).2 Flag.carry = true ↔
        100 ^ xs.length ≤ number xs + number ys + c.toNat) := by
  obtain ⟨hlen, hpacked, hnumber⟩ :=
    number_chain f hfirst combines_adc hempty hlength hx hy
  have hlt := number_lt hpacked
  have hbytes := pack_number hpacked
  rw [hlen] at hlt hbytes
  have hsum : number (chain first .adc xs ys f).1 +
      100 ^ xs.length * (hasFlag (chain first .adc xs ys f).2 Flag.carry).toNat =
        number xs + number ys + c.toNat := by
    zify
    linear_combination hnumber
  rw [← hsum]
  constructor
  · rw [Nat.add_mul_mod_self_left, Nat.mod_eq_of_lt hlt, hbytes]
  · cases hasFlag (chain first .adc xs ys f).2 Flag.carry <;> simp [hlt]

theorem chain_difference {first : AluOp} (hfirst : Combines (-1) first f c)
    (hempty : xs = [] → c = hasFlag f Flag.carry) (hlength : xs.length = ys.length)
    (hx : ∀ b ∈ xs, Packed b) (hy : ∀ b ∈ ys, Packed b) :
    (chain first .sbc xs ys f).1 =
        pack xs.length (((number xs - number ys - c.toNat : Int) % 100 ^ xs.length).toNat) ∧
      (hasFlag (chain first .sbc xs ys f).2 Flag.carry = true ↔
        number xs < number ys + c.toNat) := by
  obtain ⟨hlen, hpacked, hnumber⟩ :=
    number_chain f hfirst combines_sbc hempty hlength hx hy
  have hlt := number_lt hpacked
  have hbytes := pack_number hpacked
  rw [hlen] at hlt hbytes
  have hdifference : (number xs - number ys - c.toNat : Int) =
      number (chain first .sbc xs ys f).1 -
        100 ^ xs.length * (hasFlag (chain first .sbc xs ys f).2 Flag.carry).toNat := by
    linear_combination -hnumber
  have hlt' : (number (chain first .sbc xs ys f).1 : Int) < 100 ^ xs.length := by exact_mod_cast hlt
  constructor
  · rw [hdifference, Int.sub_mul_emod_self_left, Int.emod_eq_of_lt (Int.natCast_nonneg _) hlt',
      Int.toNat_natCast, hbytes]
  · have hborrow : number xs < number ys + c.toNat ↔
        (number xs - number ys - c.toNat : Int) < 0 := by omega
    rw [hborrow, hdifference]
    cases hasFlag (chain first .sbc xs ys f).2 Flag.carry <;> simp [hlt']

/-- Decimal addition and subtraction of `n` packed bytes, each adjusted through the table: the
result packs the sum or difference modulo `100 ^ n`, and the carry tells of a sum that is no
smaller, or of a borrow. The first byte takes in the carry, or none if it goes through `ADD` or
`SUB`. -/
theorem chain_eq_pack (hlength : xs.length = ys.length)
    (hx : ∀ b ∈ xs, Packed b) (hy : ∀ b ∈ ys, Packed b) :
    let n := xs.length
    let x := number xs
    let y := number ys
    let c := (hasFlag f Flag.carry).toNat
    (∀ a f, ∃ _ : decimalRow a f < 2048,
      decimalAdjust a f =
        { value := hiByte decimalTable[decimalRow a f]
          flags := loByte decimalTable[decimalRow a f] }) ∧
    ((chain .adc .adc xs ys f).1 = pack n ((x + y + c) % 100 ^ n) ∧
      (hasFlag (chain .adc .adc xs ys f).2 Flag.carry = true ↔ 100 ^ n ≤ x + y + c)) ∧
    (0 < n → (chain .add .adc xs ys f).1 = pack n ((x + y) % 100 ^ n) ∧
      (hasFlag (chain .add .adc xs ys f).2 Flag.carry = true ↔ 100 ^ n ≤ x + y)) ∧
    ((chain .sbc .sbc xs ys f).1 = pack n (((x - y - c : Int) % 100 ^ n).toNat) ∧
      (hasFlag (chain .sbc .sbc xs ys f).2 Flag.carry = true ↔ x < y + c)) ∧
    (0 < n → (chain .sub .sbc xs ys f).1 = pack n (((x - y : Int) % 100 ^ n).toNat) ∧
      (hasFlag (chain .sub .sbc xs ys f).2 Flag.carry = true ↔ x < y)) := by
  intro n x y c
  have hne : 0 < n → xs = [] → false = hasFlag f Flag.carry := by
    rintro hn rfl
    exact absurd hn (Nat.lt_irrefl 0)
  refine ⟨decimalAdjust_eq_table, ?_, fun hn => ?_, ?_, fun hn => ?_⟩
  · exact chain_sum f (combines_adc f) (fun _ => rfl) hlength hx hy
  · exact chain_sum f (combines_add f) (hne hn) hlength hx hy
  · exact chain_difference f (combines_sbc f) (fun _ => rfl) hlength hx hy
  · have hsub := chain_difference f (combines_sub f) (hne hn) hlength hx hy
    simpa using hsub

end Chains

/-- The sums of 9950 and 75, with a carry and without one, and the difference of 75 and 9950. -/
theorem chain_eq_pack_four_digits :
    let x : List UInt8 := [0x50, 0x99]
    let y : List UInt8 := [0x75, 0x00]
    x.length = y.length ∧ (∀ b ∈ x, Packed b) ∧ (∀ b ∈ y, Packed b) ∧ 0 < x.length ∧
      (chain .adc .adc x y 0x01).1 = [0x26, 0x00] ∧ (chain .add .adc x y 0x01).1 = [0x25, 0x00] ∧
      (chain .sub .sbc y x 0x00).1 = [0x25, 0x01] := by
  intro x y
  have hx : ∀ b ∈ x, Packed b := by simp [x, Packed]
  have hy : ∀ b ∈ y, Packed b := by simp [y, Packed]
  obtain ⟨-, ⟨hadc, -⟩, hadd, -⟩ := @chain_eq_pack 0x01 x y rfl hx hy
  obtain ⟨-, -, -, -, hsub⟩ := @chain_eq_pack 0x00 y x rfl hy hx
  have hadd := (hadd (by decide)).1
  have hsub := (hsub (by decide)).1
  refine ⟨rfl, hx, hy, by decide, hadc.trans ?_, hadd.trans ?_, hsub.trans ?_⟩
  · decide
  · decide
  · decide

end AmstradCpc.Z80
