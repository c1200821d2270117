/-!
# Tables of a settings file

A settings file is TOML with the values that a setting can have: texts, numbers, tables, and
arrays with nothing in them. Values of other kinds are refused by the parser, as no setting takes
them; only a moment is a table under another form.

A table is begun by its header, between braces, or by a dotted key, and a header begins the tables
that it passes through as well. A key is defined once, and so is a table: a header may only define
one that other headers have passed through, and a dotted key adds only to tables that dotted keys
began.
-/

namespace AmstradCpc.Toml

/-- How a table began. -/
inductive TableKind
  | header
  | braces
  /-- The header of a table within it. -/
  | passed
  | dotted
  deriving DecidableEq, Repr, Inhabited

inductive Node
  | text (s : String)
  | number (n : Int)
  | emptyArray
  | table (kind : TableKind) (entries : List (String × Node))
  deriving Inhabited

abbrev Entries := List (String × Node)

/-- A date or a time. It counts as a table in which only this key has a value. -/
def Node.moment (text : String) : Node :=
  .table .braces [("$__toml_private_datetime", .text text)]

namespace Entries

/-- Puts another node under a key that is there. -/
def replace (es : Entries) (key : String) (node : Node) : Entries :=
  es.map fun (k, old) => (k, if k = key then node else old)

/-- Defines a key. -/
def define (key : String) (node : Node) (es : Entries) : Option Entries :=
  match es.lookup key with
  | none => some (es ++ [(key, node)])
  | some _ => none

/-- Defines a dotted key: the one after the tables of a path. -/
def defineDotted (path : List String) (key : String) (node : Node) (es : Entries) :
    Option Entries :=
  match path with
  | [] => es.define key node
  | p :: path =>
    match es.lookup p with
    | none => do return es ++ [(p, .table .dotted (← defineDotted path key node []))]
    | some (.table .dotted inner) => do
      return replace es p (.table .dotted (← defineDotted path key node inner))
    | some (.table .passed inner) =>
      if path.isEmpty then none
      else do return replace es p (.table .passed (← defineDotted path key node inner))
    | some _ => none

/-- Defines the table of a header. -/
def defineTable (path : List String) (key : String) (es : Entries) : Option Entries :=
  match path with
  | [] =>
    match es.lookup key with
    | none => some (es ++ [(key, .table .header [])])
    | some (.table .passed inner) => some (replace es key (.table .header inner))
    | some _ => none
  | p :: path =>
    match es.lookup p with
    | none => do return es ++ [(p, .table .passed (← defineTable path key []))]
    | some (.table .braces _) => none
    | some (.table kind inner) => do
      return replace es p (.table kind (← defineTable path key inner))
    | some _ => none

/-- Changes the table at a path, if there is one. -/
def within (path : List String) (f : Entries → Option Entries) (es : Entries) : Option Entries :=
  match path with
  | [] => f es
  | p :: path =>
    match es.lookup p with
    | some (.table kind inner) => do return replace es p (.table kind (← within path f inner))
    | _ => none

end Entries

end AmstradCpc.Toml
