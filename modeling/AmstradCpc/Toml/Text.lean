import AmstradCpc.Text.Numeral

/-!
# Texts and numbers of a settings file

The smallest pieces of the syntax: blanks, comments and line ends, texts in four kinds of quotes,
and whole numbers in four bases. A reader takes what it reads off the front of the characters.
-/

namespace AmstradCpc.Toml

/-! ## Blanks and line ends -/

/-- Skips spaces and tabs. -/
def skipSpaces (cs : List Char) : List Char := cs.dropWhile fun c => c == ' ' || c == '\t'

/-- A character that can stand in a comment or a text: a tab, or no control character. -/
def isPlain (c : Char) : Bool := c == '\t' || (0x20 ≤ c.toNat && c.toNat != 0x7F)

/-- Reads a line end. -/
def newline? : List Char → Option (List Char)
  | '\n' :: cs => some cs
  | '\r' :: '\n' :: cs => some cs
  | _ => none

def skipComment : List Char → List Char
  | '#' :: cs => cs.dropWhile isPlain
  | cs => cs

/-- Reads the rest of a line that has nothing left but a comment. -/
def endOfLine? (cs : List Char) : Option (List Char) :=
  match skipComment (skipSpaces cs) with
  | [] => some []
  | cs => newline? cs

/-- Skips lines that hold no more than a comment, and the spaces behind them. The fuel bounds their
number. -/
def skipBlankLines : Nat → List Char → List Char
  | 0, cs => cs
  | fuel + 1, cs =>
    match endOfLine? cs with
    | some cs => skipBlankLines fuel cs
    | none => skipSpaces cs

/-- Skips blank space over lines. -/
def skipLines : List Char → List Char
  | ' ' :: cs => skipLines cs
  | '\t' :: cs => skipLines cs
  | '\n' :: cs => skipLines cs
  | '\r' :: '\n' :: cs => skipLines cs
  | cs => cs

/-! ## Texts -/

/-- The character of a number in hexadecimal digits. -/
def scalar? (digits : List Char) : Option Char := do
  let n ← Numeral.digits? 16 digits
  if n.isValidChar then some (Char.ofNat n) else none

/-- Reads what follows a backslash. -/
def escape? : List Char → Option (Char × List Char)
  | 'b' :: cs => some ('\x08', cs)
  | 't' :: cs => some ('\t', cs)
  | 'n' :: cs => some ('\n', cs)
  | 'f' :: cs => some ('\x0C', cs)
  | 'r' :: cs => some ('\r', cs)
  | '"' :: cs => some ('"', cs)
  | '\\' :: cs => some ('\\', cs)
  | 'u' :: cs => if cs.length < 4 then none else (scalar? (cs.take 4)).map fun c => (c, cs.drop 4)
  | 'U' :: cs => if cs.length < 8 then none else (scalar? (cs.take 8)).map fun c => (c, cs.drop 8)
  | _ => none

/-- Reads a text up to its quote, with escapes if the quote is double. The fuel bounds the number of
characters. -/
def lineText? (quote : Char) : Nat → List Char → List Char → Option (List Char × List Char)
  | 0, _, _ => none
  | _, [], _ => none
  | fuel + 1, c :: cs, out =>
    if c = quote then some (out.reverse, cs)
    else if c = '\\' ∧ quote = '"' then do
      let (e, cs) ← escape? cs
      lineText? quote fuel cs (e :: out)
    else if isPlain c then lineText? quote fuel cs (c :: out)
    else none

/-- Reads a text over several lines up to three quotes, before which there may be one or two more
that belong to the text. A backslash at the end of a line takes the blank space behind it away. -/
def blockText? (quote : Char) : Nat → List Char → List Char → Option (List Char × List Char)
  | 0, _, _ => none
  | _, [], _ => none
  | fuel + 1, c :: cs, out =>
    if c = quote then
      let quotes := ((c :: cs).takeWhile (· == quote)).length
      if quotes < 3 then blockText? quote fuel cs (c :: out)
      else
        let extra := min (quotes - 3) 2
        some (out.reverse ++ List.replicate extra quote, cs.drop (extra + 2))
    else if c = '\\' ∧ quote = '"' then
      match newline? (skipSpaces cs) with
      | some cs => blockText? quote fuel (skipLines cs) out
      | none => do
        let (e, cs) ← escape? cs
        blockText? quote fuel cs (e :: out)
    else
      match newline? (c :: cs) with
      | some cs => blockText? quote fuel cs ('\n' :: out)
      | none => if isPlain c then blockText? quote fuel cs (c :: out) else none

/-- Reads a text on one line. -/
def quoted? : List Char → Option (String × List Char)
  | c :: cs =>
    if c = '"' ∨ c = '\'' then
      (lineText? c (cs.length + 1) cs []).map fun (s, cs) => (String.ofList s, cs)
    else none
  | [] => none

/-- Reads a text. A line end right behind three quotes is not part of it. -/
def text? (cs : List Char) : Option (String × List Char) :=
  let block (quote : Char) (cs : List Char) :=
    let cs := (newline? cs).getD cs
    (blockText? quote (cs.length + 1) cs []).map fun (s, cs) => (String.ofList s, cs)
  match cs with
  | '"' :: '"' :: '"' :: cs => block '"' cs
  | '\'' :: '\'' :: '\'' :: cs => block '\'' cs
  | cs => quoted? cs

/-! ## Numbers -/

/-- Takes digits off the front. Single underscores may stand between them. -/
def digitGroup (base : Nat) : List Char → List Char × List Char
  | [] => ([], [])
  | '_' :: c :: cs =>
    if (Numeral.digit? base c).isSome then
      let (digits, rest) := digitGroup base cs
      (c :: digits, rest)
    else ([], '_' :: c :: cs)
  | c :: cs =>
    if (Numeral.digit? base c).isSome then
      let (digits, rest) := digitGroup base cs
      (c :: digits, rest)
    else ([], c :: cs)

/-- Reads digits, the first of which is not behind an underscore. -/
def natural? (base : Nat) (cs : List Char) : Option (Nat × List Char) := do
  if cs.head? = some '_' then none
  else
    let (digits, rest) := digitGroup base cs
    return (← Numeral.digits? base digits, rest)

/-- Reads a decimal number, which begins with a zero only if it is one. -/
def decimal? : List Char → Option (Nat × List Char)
  | '0' :: cs => some (0, cs)
  | cs => natural? 10 cs

/-- Reads a whole number. -/
def integer? : List Char → Option (Int × List Char)
  | '0' :: 'x' :: cs => (natural? 16 cs).map fun (n, cs) => (n, cs)
  | '0' :: 'o' :: cs => (natural? 8 cs).map fun (n, cs) => (n, cs)
  | '0' :: 'b' :: cs => (natural? 2 cs).map fun (n, cs) => (n, cs)
  | '+' :: cs => (decimal? cs).map fun (n, cs) => (n, cs)
  | '-' :: cs => (decimal? cs).map fun (n, cs) => (-n, cs)
  | cs => (decimal? cs).map fun (n, cs) => (n, cs)

end AmstradCpc.Toml
