import AmstradCpc.Toml
import AmstradCpc.Toml.Moment
import AmstradCpc.Toml.Text

/-!
# Settings files

A file is a sequence of lines, each blank, a table's header, or a key with its value.
`Toml.document?` reads a whole file as the entries of its root table.
-/

namespace AmstradCpc.Toml

/-! ## Keys -/

def isKeyChar (c : Char) : Bool := c.isAlphanum || c == '_' || c == '-'

/-- Reads a key, with or without quotes. -/
def simpleKey? (cs : List Char) : Option (String × List Char) :=
  match cs.takeWhile isKeyChar with
  | [] => quoted? cs
  | key => some (String.ofList key, cs.dropWhile isKeyChar)

/-- How many parts a key may have, and how many braces may stand in one another. -/
def depthLimit : Nat := 80

/-- Reads a dotted key of limited depth: the tables that it goes through, and the last part. -/
def keyWithin? : Nat → List Char → Option ((List String × String) × List Char)
  | 0, _ => none
  | depth + 1, cs => do
    let (first, cs) ← simpleKey? cs
    match skipSpaces cs with
    | '.' :: cs =>
      let ((path, last), cs) ← keyWithin? depth (skipSpaces cs)
      return ((first :: path, last), cs)
    | cs => return (([], first), cs)

def key? (cs : List Char) : Option ((List String × String) × List Char) :=
  keyWithin? depthLimit cs

/-- Reads a character, with spaces around it. -/
def sign? (c : Char) (cs : List Char) : Option (List Char) :=
  match skipSpaces cs with
  | d :: cs => if d = c then some (skipSpaces cs) else none
  | [] => none

/-! ## Values -/

/-- Reads the entries of a table in braces, from one on. The fuel bounds their number. -/
def entries? (value? : List Char → Option (Node × List Char)) :
    Nat → Entries → List Char → Option (Entries × List Char)
  | 0, _, _ => none
  | fuel + 1, es, cs => do
    let ((path, key), cs) ← key? (skipSpaces cs)
    let (node, cs) ← value? (← sign? '=' cs)
    let es ← es.defineDotted path key node
    match sign? '}' cs with
    | some cs => return (es, cs)
    | none => entries? value? fuel es (← sign? ',' cs)

/-- Reads a value of limited depth. -/
def valueWithin? : Nat → List Char → Option (Node × List Char)
  | 0, _ => none
  | _ + 1, '[' :: cs =>
    match skipBlankLines (cs.length + 1) cs with
    | ']' :: cs => some (.emptyArray, cs)
    | _ => none
  | depth + 1, '{' :: cs =>
    match sign? '}' cs with
    | some cs => some (.table .braces [], cs)
    | none => do
      let (entries, cs) ← entries? (valueWithin? depth) (cs.length + 1) [] cs
      return (.table .braces entries, cs)
  | _ + 1, cs =>
    (text? cs).map (fun (s, cs) => (.text s, cs)) <|>
    (moment? cs).map (fun (s, cs) => (.moment s, cs)) <|>
    (integer? cs).map (fun (n, cs) => (.number n, cs))

def value? (cs : List Char) : Option (Node × List Char) := valueWithin? depthLimit cs

/-! ## Lines -/

/-- What has been read: the root table, and the path of the table that keys go to. -/
structure Progress where
  root : Entries := []
  here : List String := []

/-- Reads a header behind its bracket. -/
def header? (p : Progress) (cs : List Char) : Option (Progress × List Char) := do
  let ((path, key), cs) ← key? (skipSpaces cs)
  let root ← p.root.defineTable path key
  return ({ root, here := path ++ [key] }, ← endOfLine? (← sign? ']' cs))

/-- Reads a key and its value. -/
def entry? (p : Progress) (cs : List Char) : Option (Progress × List Char) := do
  let ((path, key), cs) ← key? cs
  let (node, cs) ← value? (← sign? '=' cs)
  let root ← p.root.within p.here (·.defineDotted path key node)
  return ({ p with root }, ← endOfLine? cs)

/-- Reads a line. -/
def line? (p : Progress) (cs : List Char) : Option (Progress × List Char) :=
  match endOfLine? cs with
  | some cs => some (p, cs)
  | none =>
    match skipSpaces cs with
    | '[' :: cs => header? p cs
    | cs => entry? p cs

/-- Reads lines to the end. The fuel bounds their number. -/
def lines? : Nat → Progress → List Char → Option Progress
  | _, p, [] => some p
  | 0, _, _ => none
  | fuel + 1, p, cs => do
    let (p, cs) ← line? p cs
    lines? fuel p cs

/-- Reads a file. A byte order mark in front is skipped. -/
def document? (text : String) : Option Entries := do
  let cs := text.toList
  let cs := if cs.head? = some '\uFEFF' then cs.tail else cs
  return (← lines? (cs.length + 1) {} cs).root

end AmstradCpc.Toml
