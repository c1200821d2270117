/-!
# Reading numbers

Numbers as users write them: one digit or more, behind a sign that may be left out. Digits are those
of ASCII.
-/

namespace AmstradCpc.Numeral

/-- The value of a digit in a base up to 16. -/
def digit? (base : Nat) (c : Char) : Option Nat :=
  let value :=
    if c.isDigit then c.toNat - '0'.toNat
    else if 'a' ≤ c ∧ c ≤ 'f' then c.toNat - 'a'.toNat + 10
    else if 'A' ≤ c ∧ c ≤ 'F' then c.toNat - 'A'.toNat + 10
    else base
  if value < base then some value else none

/-- The value of digits, on top of those already read. -/
def digitsFrom? (base : Nat) : Nat → List Char → Option Nat
  | n, [] => some n
  | n, c :: rest => do digitsFrom? base (n * base + (← digit? base c)) rest

/-- The value of one digit or more. -/
def digits? (base : Nat) (cs : List Char) : Option Nat :=
  if cs.isEmpty then none else digitsFrom? base 0 cs

/-- A number below `limit`, with or without a plus sign. -/
def natural? (base limit : Nat) (cs : List Char) : Option Nat := do
  let n ← digits? base (if cs.head? = some '+' then cs.tail else cs)
  if n < limit then some n else none

/-- A decimal number with or without a sign. -/
def integer? : List Char → Option Int
  | '-' :: cs => (digits? 10 cs).map fun n => -n
  | '+' :: cs => (digits? 10 cs).map Int.ofNat
  | cs => (digits? 10 cs).map Int.ofNat

end AmstradCpc.Numeral
