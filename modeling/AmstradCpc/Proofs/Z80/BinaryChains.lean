import AmstradCpc.Proofs.Z80.Carries
import Mathlib.Data.Nat.Bitwise
import Mathlib.Data.Nat.Digits.Lemmas
import Mathlib.Tactic.LinearCombination

/-!
# Binary arithmetic on many bytes

Programs add and subtract long numbers a byte at a time, from the lowest byte up, and pass the carry
on. The bytes that come out are the sum or difference modulo `256 ^ n`, and the flags of the last
byte tell of the whole number: whether it fits without a sign, its sign, and whether it fits with
one. The instructions on words do the same as two bytes, except that the zero flag is of both.
-/

namespace AmstradCpc.Z80

/-! ## Numbers of many bytes -/

/-- The number that some bytes stand for, the lowest byte first. -/
def unsigned (bytes : List UInt8) : Nat := Nat.ofDigits 256 (bytes.map UInt8.toNat)

/-- The number in two's complement. -/
def signed (bytes : List UInt8) : Int := Int.bmod (unsigned bytes) (256 ^ bytes.length)

/-- Some `n` bytes stand for the number. -/
def FitsUnsigned (n : Nat) (v : Int) : Prop := 0 ≤ v ∧ v < 256 ^ n

/-- Some `n` bytes stand for the number in two's complement. -/
def FitsSigned (n : Nat) (v : Int) : Prop := -256 ^ n ≤ 2 * v ∧ 2 * v < 256 ^ n

theorem unsigned_nil : unsigned [] = 0 := rfl

theorem unsigned_cons (b : UInt8) (bytes : List UInt8) :
    unsigned (b :: bytes) = b.toNat + 256 * unsigned bytes := by
  simp [unsigned, Nat.ofDigits_cons]

theorem unsigned_singleton (b : UInt8) : unsigned [b] = b.toNat := by
  rw [unsigned_cons, unsigned_nil]
  rfl

theorem unsigned_lt (bytes : List UInt8) : unsigned bytes < 256 ^ bytes.length := by
  induction bytes with
  | nil => exact Nat.one_pos
  | cons b bytes ih =>
    have hb := b.toNat_lt
    rw [unsigned_cons, List.length_cons, Nat.pow_succ]
    omega

theorem signed_eq (bytes : List UInt8) :
    signed bytes =
      if 2 * unsigned bytes < 256 ^ bytes.length then (unsigned bytes : Int)
      else unsigned bytes - (256 ^ bytes.length : Nat) := by
  have hlt := unsigned_lt bytes
  have hmod : (unsigned bytes : Int) % (256 ^ bytes.length : Nat) = unsigned bytes :=
    Int.emod_eq_of_lt (by omega) (by omega)
  unfold signed Int.bmod
  dsimp only
  rw [hmod]
  split <;> split <;> omega

-- Only the top byte has a sign; those below it count as they are.
theorem signed_cons (b : UInt8) {bytes : List UInt8} (h : bytes ≠ []) :
    signed (b :: bytes) = b.toNat + 256 * signed bytes := by
  obtain ⟨n, hn⟩ := Nat.exists_eq_add_one_of_ne_zero (mt List.eq_nil_of_length_eq_zero h)
  have hb := b.toNat_lt
  rw [signed_eq, signed_eq, unsigned_cons, List.length_cons, hn, Nat.pow_succ, Nat.pow_succ]
  split <;> split <;> omega

theorem signed_singleton (b : UInt8) :
    signed [b] = if b.toNat < 0x80 then (b.toNat : Int) else b.toNat - 0x100 := by
  have hb := b.toNat_lt
  rw [signed_eq, unsigned_singleton, List.length_singleton]
  split <;> split <;> omega

theorem fitsSigned_cons {n : Nat} (hn : 0 < n) (b : UInt8) (v : Int) :
    FitsSigned (n + 1) (b.toNat + 256 * v) ↔ FitsSigned n v := by
  obtain ⟨m, rfl⟩ := Nat.exists_eq_add_one_of_ne_zero hn.ne'
  have hb := b.toNat_lt
  unfold FitsSigned
  rw [pow_succ, pow_succ]
  omega

/-! ## Operations on a byte -/

/-- What is exact of an addition if the sign is 1, and of a subtraction if it is -1: `zs` and the
carry in `f` together are the sum or difference, and sign and overflow in `f` are those of two's
complement. -/
structure Combined (sign : Int) (xs ys : List UInt8) (c : Bool) (zs : List UInt8) (f : UInt8) :
    Prop where
  length : zs.length = xs.length
  value : (unsigned zs : Int) + sign * (256 ^ xs.length * (hasFlag f Flag.carry).toNat : Nat) =
    unsigned xs + sign * (unsigned ys + c.toNat : Nat)
  negative : hasFlag f Flag.sign = true ↔ signed zs < 0
  overflow : hasFlag f Flag.parity = true ↔
    ¬ FitsSigned xs.length (signed xs + sign * (signed ys + c.toNat))

section Bytes

variable (a b x : UInt8) (c : Bool)

theorem hasFlag_sign : ∀ x, hasFlag x Flag.sign = decide (0x80 ≤ x.toNat) := by decide +kernel

theorem hasFlag_sign_xor :
    hasFlag (a ^^^ b) Flag.sign = (hasFlag a Flag.sign != hasFlag b Flag.sign) := by
  have hbit : ∀ x, hasFlag x Flag.sign = x.toNat.testBit 7 := by decide +kernel
  rw [hbit, hbit, hbit, UInt8.toNat_xor, Nat.testBit_xor]

theorem signed_neg_iff : signed [x] < 0 ↔ hasFlag x Flag.sign = true := by
  have hx := x.toNat_lt
  rw [signed_singleton, hasFlag_sign, decide_eq_true_eq]
  split <;> omega

theorem sign_add8 :
    hasFlag (add8 a b c).flags Flag.sign = hasFlag (add8 a b c).value Flag.sign := by
  simp (disch := decide) [add8, resultFlags, hasFlag_or, hasFlag_flagIf, hasFlag_mask_within,
    hasFlag_mask_apart, hasFlag_apart]

theorem sign_sub8 :
    hasFlag (sub8 a b c).flags Flag.sign = hasFlag (sub8 a b c).value Flag.sign := by
  simp (disch := decide) [sub8, resultFlags, hasFlag_or, hasFlag_flagIf, hasFlag_mask_within,
    hasFlag_mask_apart, hasFlag_apart]

theorem not_hasFlag (f m : UInt8) : (!hasFlag f m) = (f &&& m == 0) := Bool.not_not _

/-- The flags of an addition by their parts. -/
theorem flags_add8 :
    let r := add8 a b c
    r.flags = resultFlags r.value ||| ((a ^^^ b ^^^ r.value) &&& Flag.half) |||
      flagIf (!hasFlag (a ^^^ b) Flag.sign && hasFlag (a ^^^ r.value) Flag.sign) Flag.parity |||
      flagIf (hasFlag r.flags Flag.carry) Flag.carry := by
  intro r
  rw [carry_add8, not_hasFlag]
  rfl

/-- The flags of a subtraction. -/
theorem flags_sub8 :
    let r := sub8 a b c
    r.flags = Flag.subtract ||| resultFlags r.value ||| ((a ^^^ b ^^^ r.value) &&& Flag.half) |||
      flagIf (hasFlag (a ^^^ b) Flag.sign && hasFlag (a ^^^ r.value) Flag.sign) Flag.parity |||
      flagIf (hasFlag r.flags Flag.carry) Flag.carry := by
  intro r
  rw [carry_sub8]
  rfl

theorem parity_add8 : hasFlag (add8 a b c).flags Flag.parity =
    (!hasFlag (a ^^^ b) Flag.sign && hasFlag (a ^^^ (add8 a b c).value) Flag.sign) := by
  rw [flags_add8]
  simp (disch := decide) only [hasFlag_or, hasFlag_flagIf, hasFlag_resultFlags,
    hasFlag_mask_apart, hasFlag_apart, hasFlag_own, Bool.or_false, Bool.false_or, Bool.and_false,
    Bool.and_true]

theorem parity_sub8 : hasFlag (sub8 a b c).flags Flag.parity =
    (hasFlag (a ^^^ b) Flag.sign && hasFlag (a ^^^ (sub8 a b c).value) Flag.sign) := by
  rw [flags_sub8]
  simp (disch := decide) only [hasFlag_or, hasFlag_flagIf, hasFlag_resultFlags,
    hasFlag_mask_apart, hasFlag_apart, hasFlag_own, Bool.or_false, Bool.false_or, Bool.and_false,
    Bool.and_true]

theorem combined_add8 : Combined 1 [a] [b] c [(add8 a b c).value] (add8 a b c).flags where
  length := rfl
  value := by
    have ha := a.toNat_lt
    have hb := b.toNat_lt
    have hc := Bool.toNat_lt c
    rw [unsigned_singleton, unsigned_singleton, unsigned_singleton, carry_add8, toNat_add8,
      List.length_singleton]
    by_cases h : 0xFF < a.toNat + b.toNat + c.toNat <;> simp [h] <;> omega
  negative := by rw [signed_neg_iff, sign_add8]
  overflow := by
    have ha := a.toNat_lt
    have hb := b.toNat_lt
    have hc := Bool.toNat_lt c
    rw [parity_add8, hasFlag_sign_xor, hasFlag_sign_xor, hasFlag_sign, hasFlag_sign, hasFlag_sign,
      toNat_add8, signed_singleton, signed_singleton, FitsSigned, List.length_singleton]
    by_cases hna : a.toNat < 0x80 <;> by_cases hnb : b.toNat < 0x80 <;>
      simp [hna, hnb] <;> omega

theorem combined_sub8 : Combined (-1) [a] [b] c [(sub8 a b c).value] (sub8 a b c).flags where
  length := rfl
  value := by
    have ha := a.toNat_lt
    have hb := b.toNat_lt
    have hc := Bool.toNat_lt c
    rw [unsigned_singleton, unsigned_singleton, unsigned_singleton, carry_sub8, toNat_sub8,
      List.length_singleton]
    by_cases h : a.toNat < b.toNat + c.toNat <;> simp [h] <;> omega
  negative := by rw [signed_neg_iff, sign_sub8]
  overflow := by
    have ha := a.toNat_lt
    have hb := b.toNat_lt
    have hc := Bool.toNat_lt c
    rw [parity_sub8, hasFlag_sign_xor, hasFlag_sign_xor, hasFlag_sign, hasFlag_sign, hasFlag_sign,
      toNat_sub8, signed_singleton, signed_singleton, FitsSigned, List.length_singleton]
    by_cases hna : a.toNat < 0x80 <;> by_cases hnb : b.toNat < 0x80 <;>
      simp [hna, hnb] <;> omega

end Bytes

/-! ## Chains -/

/-- Works through two numbers from the lowest byte up, each byte with the carry that the one below
leaves. -/
def carried (op : UInt8 → UInt8 → Bool → AluResult) :
    List UInt8 → List UInt8 → Bool → List AluResult
  | a :: as, b :: bs, c =>
    let r := op a b c
    r :: carried op as bs (hasFlag r.flags Flag.carry)
  | _, _, _ => []

-- A byte below takes part in the number above it by its carry alone.
theorem Combined.cons {sign : Int} {a b v f g : UInt8} {c : Bool} {as bs vs : List UInt8}
    (hlow : Combined sign [a] [b] c [v] f)
    (hhigh : Combined sign as bs (hasFlag f Flag.carry) vs g) (hlength : as.length = bs.length)
    (hne : as ≠ []) : Combined sign (a :: as) (b :: bs) c (v :: vs) g := by
  have hpos : 0 < as.length := List.length_pos_iff.mpr hne
  have hbs : bs ≠ [] := List.ne_nil_of_length_pos (hlength ▸ hpos)
  have hvs : vs ≠ [] := List.ne_nil_of_length_pos (hhigh.length ▸ hpos)
  have hv := v.toNat_lt
  have hbyte := hlow.value
  have hrest := hhigh.value
  simp only [unsigned_singleton, List.length_singleton] at hbyte
  push_cast at hbyte hrest
  refine ⟨congrArg Nat.succ hhigh.length, ?_, ?_, ?_⟩
  · rw [unsigned_cons, unsigned_cons, unsigned_cons, List.length_cons, pow_succ]
    push_cast
    linear_combination hbyte + 256 * hrest
  · rw [hhigh.negative, signed_cons v hvs]
    omega
  · have hsigned : signed (a :: as) + sign * (signed (b :: bs) + c.toNat) =
        v.toNat + 256 * (signed as + sign * (signed bs + (hasFlag f Flag.carry).toNat)) := by
      rw [signed_cons a hne, signed_cons b hbs]
      linear_combination -hbyte
    rw [hhigh.overflow, hsigned, List.length_cons, fitsSigned_cons hpos]

theorem combined_carried {sign : Int} {op : UInt8 → UInt8 → Bool → AluResult}
    (hop : ∀ a b c, Combined sign [a] [b] c [(op a b c).value] (op a b c).flags)
    {xs ys : List UInt8} (hlength : xs.length = ys.length) (hne : xs ≠ []) (c : Bool) :
    ∃ last, (carried op xs ys c).getLast? = some last ∧
      Combined sign xs ys c ((carried op xs ys c).map AluResult.value) last.flags := by
  induction xs generalizing ys c with
  | nil => exact absurd rfl hne
  | cons a xs ih =>
    cases ys with
    | nil => cases hlength
    | cons b ys =>
      have hlength := Nat.succ.inj hlength
      cases xs with
      | nil =>
        obtain rfl := List.eq_nil_of_length_eq_zero hlength.symm
        exact ⟨op a b c, rfl, hop a b c⟩
      | cons a' xs =>
        obtain ⟨last, hlast, hrest⟩ :=
          ih hlength (List.cons_ne_nil a' xs) (hasFlag (op a b c).flags Flag.carry)
        refine ⟨last, ?_, (hop a b c).cons hrest hlength (List.cons_ne_nil a' xs)⟩
        rw [carried, List.getLast?_cons, hlast]
        rfl

/-- The bytes and the last flags of an operation on `n` bytes, the exact result of which is `u` for
operands without a sign and `s` for operands in two's complement. -/
structure Outcome (n : Nat) (results : List AluResult) (u s : Int) : Prop where
  length : results.length = n
  value : (unsigned (results.map AluResult.value) : Int) = u % 256 ^ n
  flags : ∃ last, results.getLast? = some last ∧
    (hasFlag last.flags Flag.carry = true ↔ ¬ FitsUnsigned n u) ∧
    (hasFlag last.flags Flag.sign = true ↔ signed (results.map AluResult.value) < 0) ∧
    (hasFlag last.flags Flag.parity = true ↔ ¬ FitsSigned n s)

theorem outcome_carried {sign : Int} (hsign : sign = 1 ∨ sign = -1)
    {op : UInt8 → UInt8 → Bool → AluResult}
    (hop : ∀ a b c, Combined sign [a] [b] c [(op a b c).value] (op a b c).flags)
    {xs ys : List UInt8} (hlength : xs.length = ys.length) (hne : xs ≠ []) (c : Bool) :
    Outcome xs.length (carried op xs ys c) (unsigned xs + sign * (unsigned ys + c.toNat : Nat))
      (signed xs + sign * (signed ys + c.toNat)) := by
  obtain ⟨last, hlast, hvalues⟩ := combined_carried hop hlength hne c
  have hlen := hvalues.length
  have hlt := unsigned_lt ((carried op xs ys c).map AluResult.value)
  rw [hlen] at hlt
  have hlt : (unsigned ((carried op xs ys c).map AluResult.value) : Int) < 256 ^ xs.length := by
    exact_mod_cast hlt
  refine ⟨by rw [← hlen, List.length_map], ?_, last, hlast, ?_, hvalues.negative,
    hvalues.overflow⟩
  · rw [← hvalues.value]
    push_cast
    rw [mul_left_comm, Int.add_mul_emod_self_left,
      Int.emod_eq_of_lt (Int.natCast_nonneg _) hlt]
  · rw [← hvalues.value]
    push_cast
    unfold FitsUnsigned
    rcases hsign with rfl | rfl <;> cases hasFlag last.flags Flag.carry <;> simp <;> omega

/-! ## Words -/

section Words

variable (w : UInt16) (h l v k m : UInt8) (z p c : Bool)

theorem toNat_word : (word h l).toNat = 0x100 * h.toNat + l.toNat := by
  have hl := l.toNat_lt
  have hh := h.toNat_lt
  have hhigh : (h.toUInt16 <<< 8).toNat = h.toNat <<< 8 := by
    rw [UInt16.toNat_shiftLeft, UInt8.toNat_toUInt16]
    show h.toNat <<< 8 % 2 ^ 16 = _
    rw [Nat.shiftLeft_eq]
    omega
  rw [word, UInt16.toNat_or, hhigh, UInt8.toNat_toUInt16, ← Nat.shiftLeft_add_eq_or_of_lt hl,
    Nat.shiftLeft_eq]
  omega

theorem unsigned_word : unsigned [loByte w, hiByte w] = w.toNat := by
  have hword := congrArg UInt16.toNat (word_hiByte_loByte w)
  rw [toNat_word] at hword
  rw [unsigned_cons, unsigned_singleton]
  omega

theorem hiByte_xor (a b : UInt16) : hiByte (a ^^^ b) = hiByte a ^^^ hiByte b := by
  apply UInt8.eq_of_toBitVec_eq
  simp only [hiByte, UInt16.toBitVec_toUInt8, UInt16.toBitVec_shiftRight, UInt16.toBitVec_xor,
    UInt8.toBitVec_xor]
  ext i hi
  simp

theorem sign_hiByte : (w &&& 0x8000 != 0) = hasFlag (hiByte w) Flag.sign := by
  have hword := congrArg UInt16.toNat (word_hiByte_loByte w)
  have hlow := (loByte w).toNat_lt
  have hhigh := (hiByte w).toNat_lt
  rw [toNat_word] at hword
  have hbit : (w &&& 0x8000).toNat = (w.toNat.testBit 15).toNat * 2 ^ 15 := by
    rw [UInt16.toNat_and]
    exact Nat.and_two_pow w.toNat 15
  rw [hasFlag_sign, Bool.eq_iff_iff, bne_iff_ne, ne_eq, ← UInt16.toNat_inj, hbit,
    Nat.testBit_eq_decide_div_mod_eq, decide_eq_true_eq]
  by_cases hset : w.toNat / 2 ^ 15 % 2 = 1 <;> simp <;> omega

theorem clear_hiByte : (w &&& 0x8000 == 0) = !hasFlag (hiByte w) Flag.sign := by
  rw [← sign_hiByte]
  exact (Bool.not_not _).symm

theorem flagIf_and : flagIf c k &&& m = flagIf c (k &&& m) := by
  cases c
  · exact UInt8.zero_and
  · rfl

theorem flagIf_zero : flagIf c 0 = 0 := by cases c <;> rfl

theorem resultFlags16_eq : resultFlags16 w =
    (hiByte w &&& (Flag.sign ||| Flag.xy)) ||| flagIf (w == 0) Flag.zero := rfl

-- The flags of a word next to those of its high byte: all but zero are the same. `n` is subtract.
theorem join_without_zero {n : UInt8} (hn : n &&& ~~~Flag.zero = n) :
    n ||| ((v &&& (Flag.sign ||| Flag.xy)) ||| flagIf z Flag.zero) ||| (h &&& Flag.half) |||
        flagIf p Flag.parity ||| flagIf c Flag.carry =
      ((n ||| resultFlags v ||| (h &&& Flag.half) ||| flagIf p Flag.parity |||
        flagIf c Flag.carry) &&& ~~~Flag.zero) ||| flagIf z Flag.zero := by
  have hsign : (Flag.sign ||| Flag.xy) &&& ~~~Flag.zero = Flag.sign ||| Flag.xy := by decide
  have hzero : Flag.zero &&& ~~~Flag.zero = 0 := by decide
  have hhalf : Flag.half &&& ~~~Flag.zero = Flag.half := by decide
  have hparity : Flag.parity &&& ~~~Flag.zero = Flag.parity := by decide
  have hcarry : Flag.carry &&& ~~~Flag.zero = Flag.carry := by decide
  simp only [resultFlags, UInt8.or_and_mask, flagIf_and, UInt8.and_assoc, hn, hsign, hzero, hhalf,
    hparity, hcarry, flagIf_zero, UInt8.or_zero]
  ac_rfl

theorem halfCarry16_eq (a b value : UInt16) :
    halfCarry16 a b value = (hiByte a ^^^ hiByte b ^^^ hiByte value) &&& Flag.half := by
  rw [← hiByte_xor, ← hiByte_xor]
  rfl

variable (a b : UInt16)

theorem toNat_word_of_combined {sign : Int} {a b : UInt16} {c : Bool} {h l f : UInt8}
    (hbytes : Combined sign [loByte a, hiByte a] [loByte b, hiByte b] c [l, h] f) :
    ((word h l).toNat : Int) + sign * (256 ^ 2 * (hasFlag f Flag.carry).toNat : Nat) =
      a.toNat + sign * (b.toNat + c.toNat : Nat) := by
  have hvalue := hbytes.value
  have hlength : [loByte a, hiByte a].length = 2 := rfl
  have hword := unsigned_word (word h l)
  rw [loByte_word, hiByte_word] at hword
  rwa [hword, unsigned_word, unsigned_word, hlength] at hvalue

theorem toNat_carryIn16 : (if c then 1 else 0 : UInt16).toNat = c.toNat := by cases c <;> rfl

variable {lo hi : AluResult}

/-- A word addition is two byte additions, but zero is of the word. -/
theorem adc16_eq (hlo : add8 (loByte a) (loByte b) c = lo)
    (hhi : add8 (hiByte a) (hiByte b) (hasFlag lo.flags Flag.carry) = hi) :
    adc16 a b c =
      { value := word hi.value lo.value
        flags := (hi.flags &&& ~~~Flag.zero) |||
          flagIf (word hi.value lo.value == 0) Flag.zero } := by
  have hlow := combined_add8 (loByte a) (loByte b) c
  have hhigh := combined_add8 (hiByte a) (hiByte b) (hasFlag lo.flags Flag.carry)
  have hflags := flags_add8 (hiByte a) (hiByte b) (hasFlag lo.flags Flag.carry)
  rw [hlo] at hlow
  rw [hhi] at hhigh hflags
  have hsum := toNat_word_of_combined (hlow.cons hhigh rfl (List.cons_ne_nil _ _))
  have hwide := (word hi.value lo.value).toNat_lt
  have hvalue : a + b + (if c then 1 else 0) = word hi.value lo.value := by
    rw [← UInt16.toNat_inj, UInt16.toNat_add, UInt16.toNat_add, toNat_carryIn16]
    omega
  have hcarry : decide (0xFFFF < a.toNat + b.toNat + c.toNat) = hasFlag hi.flags Flag.carry := by
    cases hset : hasFlag hi.flags Flag.carry <;> simp [hset] at hsum ⊢ <;> omega
  rw [hflags, ← @UInt8.zero_or (resultFlags hi.value), ← join_without_zero _ _ _ _ _ (by decide)]
  simp only [adc16, hvalue, gt_iff_lt, hcarry, resultFlags16_eq, halfCarry16_eq, hiByte_word,
    clear_hiByte, sign_hiByte, hiByte_xor, UInt8.zero_or]

theorem sbc16_eq (hlo : sub8 (loByte a) (loByte b) c = lo)
    (hhi : sub8 (hiByte a) (hiByte b) (hasFlag lo.flags Flag.carry) = hi) :
    sbc16 a b c =
      { value := word hi.value lo.value
        flags := (hi.flags &&& ~~~Flag.zero) |||
          flagIf (word hi.value lo.value == 0) Flag.zero } := by
  have hlow := combined_sub8 (loByte a) (loByte b) c
  have hhigh := combined_sub8 (hiByte a) (hiByte b) (hasFlag lo.flags Flag.carry)
  have hflags := flags_sub8 (hiByte a) (hiByte b) (hasFlag lo.flags Flag.carry)
  rw [hlo] at hlow
  rw [hhi] at hhigh hflags
  have hdifference := toNat_word_of_combined (hlow.cons hhigh rfl (List.cons_ne_nil _ _))
  have hwide := (word hi.value lo.value).toNat_lt
  have ha := a.toNat_lt
  have hb := b.toNat_lt
  have hc := Bool.toNat_lt c
  have hcarried := Bool.toNat_lt (hasFlag hi.flags Flag.carry)
  have hvalue : a - b - (if c then 1 else 0) = word hi.value lo.value := by
    rw [← UInt16.toNat_inj, UInt16.toNat_sub, UInt16.toNat_sub, toNat_carryIn16]
    omega
  have hcarry : decide (a.toNat < b.toNat + c.toNat) = hasFlag hi.flags Flag.carry := by
    cases hset : hasFlag hi.flags Flag.carry <;> simp [hset] at hdifference ⊢ <;> omega
  rw [hflags, ← join_without_zero _ _ _ _ _ (by decide)]
  simp only [sbc16, hvalue, hcarry, resultFlags16_eq, halfCarry16_eq, hiByte_word,
    sign_hiByte, hiByte_xor]

-- The plain addition is the one without a carry, cut down to the flags that it changes.
theorem add16_eq_adc16 :
    add16 a b =
      { value := (adc16 a b false).value
        flags := (adc16 a b false).flags &&& (Flag.half ||| Flag.carry ||| Flag.xy) } := by
  have hsign : (Flag.sign ||| Flag.xy) &&& (Flag.half ||| Flag.carry ||| Flag.xy) = Flag.xy := by
    decide
  have hzero : Flag.zero &&& (Flag.half ||| Flag.carry ||| Flag.xy) = 0 := by decide
  have hhalf : Flag.half &&& (Flag.half ||| Flag.carry ||| Flag.xy) = Flag.half := by decide
  have hparity : Flag.parity &&& (Flag.half ||| Flag.carry ||| Flag.xy) = 0 := by decide
  have hcarry : Flag.carry &&& (Flag.half ||| Flag.carry ||| Flag.xy) = Flag.carry := by decide
  have hvalue : a + b + (if false then 1 else 0) = a + b := UInt16.add_zero _
  simp only [add16, adc16, hvalue, resultFlags16, halfCarry16, UInt8.or_and_mask, flagIf_and,
    UInt8.and_assoc, hsign, hzero, hhalf, hparity, hcarry, flagIf_zero, UInt8.or_zero]
  rfl

theorem add16_eq (hlo : add8 (loByte a) (loByte b) false = lo)
    (hhi : add8 (hiByte a) (hiByte b) (hasFlag lo.flags Flag.carry) = hi) :
    add16 a b =
      { value := word hi.value lo.value
        flags := hi.flags &&& (Flag.half ||| Flag.carry ||| Flag.xy) } := by
  have hmask : ~~~Flag.zero &&& (Flag.half ||| Flag.carry ||| Flag.xy) =
      Flag.half ||| Flag.carry ||| Flag.xy := by decide
  have hzero : ∀ z, flagIf z Flag.zero &&& (Flag.half ||| Flag.carry ||| Flag.xy) = 0 := by decide
  rw [add16_eq_adc16, adc16_eq _ _ _ hlo hhi]
  dsimp only
  rw [UInt8.or_and_mask, UInt8.and_assoc, hmask, hzero, UInt8.or_zero]

end Words

/-- A chain of byte additions or subtractions is the operation on numbers of any length: the value
modulo `256 ^ n`, carry if it does not fit without a sign, sign, and overflow if it does not fit in
two's complement. The word operations are chains of two bytes, with the flags of the second one but
for zero, which is of the word. -/
theorem carried_outcomes {xs ys : List UInt8} (hlength : xs.length = ys.length) (hne : 1 ≤ xs.length) :
    (∀ c, Outcome xs.length (carried add8 xs ys c) (unsigned xs + unsigned ys + c.toNat)
      (signed xs + signed ys + c.toNat)) ∧
    (∀ c, Outcome xs.length (carried sub8 xs ys c) (unsigned xs - unsigned ys - c.toNat)
      (signed xs - signed ys - c.toNat)) ∧
    (∀ a b c, ∃ lo hi,
      carried add8 [loByte a, hiByte a] [loByte b, hiByte b] c = [lo, hi] ∧
      adc16 a b c =
        { value := word hi.value lo.value
          flags := (hi.flags &&& ~~~Flag.zero) |||
            flagIf (word hi.value lo.value == 0) Flag.zero }) ∧
    (∀ a b c, ∃ lo hi,
      carried sub8 [loByte a, hiByte a] [loByte b, hiByte b] c = [lo, hi] ∧
      sbc16 a b c =
        { value := word hi.value lo.value
          flags := (hi.flags &&& ~~~Flag.zero) |||
            flagIf (word hi.value lo.value == 0) Flag.zero }) ∧
    ∀ a b, ∃ lo hi,
      carried add8 [loByte a, hiByte a] [loByte b, hiByte b] false = [lo, hi] ∧
      add16 a b =
        { value := word hi.value lo.value
          flags := hi.flags &&& (Flag.half ||| Flag.carry ||| Flag.xy) } := by
  have hne : xs ≠ [] := List.ne_nil_of_length_pos hne
  refine ⟨fun c => ?_, fun c => ?_, fun a b c => ?_, fun a b c => ?_, fun a b => ?_⟩
  · have hsum := outcome_carried (.inl rfl) combined_add8 hlength hne c
    convert hsum using 1
    · push_cast
      ring
    · ring
  · have hdifference := outcome_carried (.inr rfl) combined_sub8 hlength hne c
    convert hdifference using 1
    · push_cast
      ring
    · ring
  · exact ⟨_, _, rfl, adc16_eq c a b rfl rfl⟩
  · exact ⟨_, _, rfl, sbc16_eq c a b rfl rfl⟩
  · exact ⟨_, _, rfl, add16_eq a b rfl rfl⟩

/-- The sum of 32767 and 1, which is out of range in two's complement. -/
theorem carried_outcomes_two_bytes :
    let xs : List UInt8 := [0xFF, 0x7F]
    let ys : List UInt8 := [0x01, 0x00]
    xs.length = ys.length ∧ 1 ≤ xs.length ∧ unsigned xs = 0x7FFF ∧ unsigned ys = 1 ∧
      Outcome 2 (carried add8 xs ys false) 0x8000 0x8000 ∧
      Outcome 2 (carried sub8 xs ys false) 0x7FFE 0x7FFE := by
  intro xs ys
  obtain ⟨hadd, hsub, -⟩ := @carried_outcomes xs ys rfl (by decide)
  have hx : unsigned xs = 0x7FFF := by decide
  have hy : unsigned ys = 1 := by decide
  have hsx : signed xs = 0x7FFF := by decide
  have hsy : signed ys = 1 := by decide
  have hadd := hadd false
  have hsub := hsub false
  rw [hx, hy, hsx, hsy] at hadd hsub
  exact ⟨rfl, by decide, hx, hy, hadd, hsub⟩

end AmstradCpc.Z80
