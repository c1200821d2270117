/-!
# Hexadecimal numbers

Numbers in base 16 with a fixed count of digits. Only the low digits are written, so a number keeps
its value exactly when it fits (`16 ^ width` is above it).
-/

namespace AmstradCpc.Hex

/-- The digit for a number below 16, in upper case. -/
def digit (n : Nat) : Char :=
  if n < 10 then Char.ofNat ('0'.toNat + n) else Char.ofNat ('A'.toNat + (n - 10))

/-- The low `width` digits of `n`, most significant first. -/
def digits (width n : Nat) : List Char :=
  match width with
  | 0 => []
  | w + 1 => digits w (n / 16) ++ [digit (n % 16)]

def text (width n : Nat) : String := String.ofList (digits width n)

end AmstradCpc.Hex
