import AmstradCpc.Keyboard

/-!
# Typing

Which keys type a character, on the British and on the French machine. One key is pressed for a
plain character and SHIFT with another for a shifted one. Letters are typed unshifted: BASIC accepts
them in either case.
-/

namespace AmstradCpc

inductive KeyboardLayout
  | qwerty | azerty
  deriving DecidableEq, Repr, Inhabited

namespace KeyboardLayout

def all : List KeyboardLayout := [.qwerty, .azerty]

/-- The layout's name as keyboards are sold. -/
def name : KeyboardLayout → String
  | .qwerty => "QWERTY"
  | .azerty => "AZERTY"

/-- The keys with the letters A to Z on the British machine. -/
def letters : List Key :=
  [.a, .b, .c, .d, .e, .f, .g, .h, .i, .j, .k, .l, .m, .n, .o, .p, .q, .r, .s, .t, .u, .v, .w, .x,
    .y, .z]

/-- The keys with the digits 0 to 9. -/
def digits : List Key := [.n0, .n1, .n2, .n3, .n4, .n5, .n6, .n7, .n8, .n9]

/-- The key of an unaccented letter, in either case. -/
def letter? (c : Char) : Option Key :=
  if c.isAlpha then letters[c.toUpper.toNat - 'A'.toNat]? else none

/-- The key of a decimal digit. -/
def digit? (c : Char) : Option Key :=
  if c.isDigit then digits[c.toNat - '0'.toNat]? else none

/-- The two keys of a shifted character. -/
def shifted (key : Key) : List Key := [.shift, key]

/-- The keys of a character other than a letter or digit, on the British machine. -/
def qwertySymbol : Char → List Key
  | ' ' => [.space]
  | '\n' => [.return]
  | '\t' => [.tab]
  | '-' => [.minus]
  | '^' => [.caret]
  | '@' => [.at]
  | '[' => [.leftBracket]
  | ']' => [.rightBracket]
  | ';' => [.semicolon]
  | ':' => [.colon]
  | '/' => [.slash]
  | '.' => [.dot]
  | ',' => [.comma]
  | '\\' => [.backslash]
  | '!' => shifted .n1
  | '"' => shifted .n2
  | '#' => shifted .n3
  | '$' => shifted .n4
  | '%' => shifted .n5
  | '&' => shifted .n6
  | '\'' => shifted .n7
  | '(' => shifted .n8
  | ')' => shifted .n9
  | '_' => shifted .n0
  | '=' => shifted .minus
  | '|' => shifted .at
  | '+' => shifted .semicolon
  | '*' => shifted .colon
  | '?' => shifted .slash
  | '>' => shifted .dot
  | '<' => shifted .comma
  | _ => []

/-- The keys of a character other than a letter or digit, on the French machine. -/
def azertySymbol : Char → List Key
  | ' ' => [.space]
  | '\n' => [.return]
  | '\t' => [.tab]
  | '&' => [.n1]
  | '"' => [.n3]
  | '\'' => [.n4]
  | '(' => [.n5]
  | '!' => [.n8]
  | ')' => [.minus]
  | ',' => [.m]
  | ';' => [.comma]
  | ':' => [.dot]
  | '=' => [.slash]
  | '.' => shifted .comma
  | '/' => shifted .dot
  | '+' => shifted .slash
  | '|' => shifted .at
  | _ => []

/-- The key that has the French legend where `key` has the British one: A and Q change places, so do
W and Z, and M is next to L. -/
def azertyLetter : Key → Key
  | .a => .q
  | .q => .a
  | .z => .w
  | .w => .z
  | .m => .colon
  | key => key

/-- The keys that type a character; none for one that the keyboard does not have. -/
def keys (layout : KeyboardLayout) (c : Char) : List Key :=
  match layout, letter? c, digit? c with
  | .qwerty, some key, _ => [key]
  | .qwerty, none, some key => [key]
  | .qwerty, none, none => qwertySymbol c
  | .azerty, some key, _ => [azertyLetter key]
  | .azerty, none, some key => shifted key
  | .azerty, none, none => azertySymbol c

end KeyboardLayout

end AmstradCpc
