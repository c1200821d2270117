import AmstradCpc.Text.Numeral

/-!
# Dates and times of a settings file

A moment is a date, a time of day, or both, in which case it may also say how far its clock is from
that of Greenwich. No setting takes one, but it has to be told from what is no value at all.
-/

namespace AmstradCpc.Toml

/-! ## Fields -/

/-- Reads a character. -/
def char? (c : Char) : List Char → Option (List Char)
  | d :: cs => if d = c then some cs else none
  | [] => none

/-- Reads a number with a fixed count of digits. -/
def field? (count low high : Nat) (cs : List Char) : Option (Nat × List Char) := do
  let digits := cs.take count
  let n ← Numeral.digits? 10 digits
  if digits.length = count ∧ low ≤ n ∧ n ≤ high then some (n, cs.drop count) else none

/-! ## Dates -/

def isLeapYear (year : Nat) : Bool := year % 4 == 0 && (year % 100 != 0 || year % 400 == 0)

def daysInMonth (year month : Nat) : Nat :=
  if month = 2 then (if isLeapYear year then 29 else 28)
  else if month ∈ [4, 6, 9, 11] then 30
  else 31

/-- Reads a date, and gives what follows it. -/
def afterDate? (cs : List Char) : Option (List Char) := do
  let (year, cs) ← field? 4 0 9999 cs
  let (month, cs) ← field? 2 1 12 (← char? '-' cs)
  let (_, cs) ← field? 2 1 (daysInMonth year month) (← char? '-' cs)
  return cs

/-! ## Times -/

/-- Reads hours and minutes. -/
def afterMinutes? (cs : List Char) : Option (List Char) := do
  let (_, cs) ← field? 2 0 23 cs
  let (_, cs) ← field? 2 0 59 (← char? ':' cs)
  return cs

/-- Skips decimals of a second. -/
def afterDecimals : List Char → List Char
  | '.' :: c :: cs => if c.isDigit then cs.dropWhile Char.isDigit else '.' :: c :: cs
  | cs => cs

/-- Reads a time of day. The last minute of a day may have a leap second. -/
def afterTime? (cs : List Char) : Option (List Char) := do
  let (_, cs) ← field? 2 0 60 (← char? ':' (← afterMinutes? cs))
  return afterDecimals cs

/-- Reads a distance from the clock of Greenwich. -/
def afterOffset? : List Char → Option (List Char)
  | c :: cs =>
    if c = 'Z' ∨ c = 'z' then some cs
    else if c = '+' ∨ c = '-' then afterMinutes? cs
    else none
  | [] => none

/-- Reads the time behind a date. -/
def afterClock? : List Char → Option (List Char)
  | c :: cs =>
    if c = 'T' ∨ c = 't' ∨ c = ' ' then do
      let cs ← afterTime? cs
      return (afterOffset? cs).getD cs
    else none
  | [] => none

/-! ## Moments -/

def afterMoment? (cs : List Char) : Option (List Char) :=
  match afterDate? cs with
  | some cs => some ((afterClock? cs).getD cs)
  | none => afterTime? cs

/-- Reads a moment as it is written. -/
def moment? (cs : List Char) : Option (String × List Char) :=
  (afterMoment? cs).map fun rest => (String.ofList (cs.take (cs.length - rest.length)), rest)

end AmstradCpc.Toml
