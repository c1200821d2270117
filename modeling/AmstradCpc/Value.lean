import AmstradCpc.Text.Hex

/-!
# Values shown to the user

What a query of the machine's state answers. Registers are written in hexadecimal with as many
digits as they are wide; counters are written in decimal.
-/

namespace AmstradCpc

inductive Value
  | bool (b : Bool)
  | u8 (n : UInt8)
  | u16 (n : UInt16)
  | u32 (n : UInt32)
  | u64 (n : UInt64)
  | string (s : String)
  | array (items : List Value)
  deriving Inhabited

namespace Value

/-- What kind of value it is. -/
def kind : Value → String
  | .bool _ => "bool"
  | .u8 _ => "u8"
  | .u16 _ => "u16"
  | .u32 _ => "u32"
  | .u64 _ => "u64"
  | .string _ => "string"
  | .array _ => "array"

/-- Register files and palettes. -/
def bytes (items : List UInt8) : Value := .array (items.map .u8)

mutual

def text : Value → String
  | .bool true => "true"
  | .bool false => "false"
  | .u8 n => "0x" ++ Hex.text 2 n.toNat
  | .u16 n => "0x" ++ Hex.text 4 n.toNat
  | .u32 n => "0x" ++ Hex.text 8 n.toNat
  | .u64 n => toString n.toNat
  | .string s => s
  | .array items => "[" ++ joined items ++ "]"

/-- The items, separated by commas. -/
def joined : List Value → String
  | [] => ""
  | [v] => text v
  | v :: w :: rest => text v ++ ", " ++ joined (w :: rest)

end

end Value

end AmstradCpc
