/-!
# Keyboard

The keys sit in a matrix of ten lines with eight keys each, of which line 9 carries the joystick. A
line reads as a byte in which a pressed key is a clear bit. Keys are named after the British
legends; the French machine has the same matrix with other legends.
-/

namespace AmstradCpc

/-- A key, in matrix order: eight on a line, and the last line lacks the one before `del`. -/
inductive Key
  | up | right | down | f9 | f6 | f3 | keypadEnter | keypadDot
  | left | copy | f7 | f8 | f5 | f1 | f2 | f0
  | clr | leftBracket | return | rightBracket | f4 | shift | backslash | control
  | caret | minus | at | p | semicolon | colon | slash | dot
  | n0 | n9 | o | i | l | k | m | comma
  | n8 | n7 | u | y | h | j | n | space
  | n6 | n5 | r | t | g | f | b | v
  | n4 | n3 | e | w | s | d | c | x
  | n1 | n2 | esc | q | tab | a | capsLock | z
  | joyUp | joyDown | joyLeft | joyRight | fire2 | fire1 | del
  deriving DecidableEq, Repr, Inhabited

namespace Key

/-- Every key, in matrix order. -/
def all : List Key :=
  [.up, .right, .down, .f9, .f6, .f3, .keypadEnter, .keypadDot,
    .left, .copy, .f7, .f8, .f5, .f1, .f2, .f0,
    .clr, .leftBracket, .return, .rightBracket, .f4, .shift, .backslash, .control,
    .caret, .minus, .at, .p, .semicolon, .colon, .slash, .dot,
    .n0, .n9, .o, .i, .l, .k, .m, .comma,
    .n8, .n7, .u, .y, .h, .j, .n, .space,
    .n6, .n5, .r, .t, .g, .f, .b, .v,
    .n4, .n3, .e, .w, .s, .d, .c, .x,
    .n1, .n2, .esc, .q, .tab, .a, .capsLock, .z,
    .joyUp, .joyDown, .joyLeft, .joyRight, .fire2, .fire1, .del]

/-- The names of the keys, in matrix order. -/
def names : List String :=
  ["Up", "Right", "Down", "F9", "F6", "F3", "KeypadEnter", "KeypadDot",
    "Left", "Copy", "F7", "F8", "F5", "F1", "F2", "F0",
    "Clr", "LeftBracket", "Return", "RightBracket", "F4", "Shift", "Backslash", "Control",
    "Caret", "Minus", "At", "P", "Semicolon", "Colon", "Slash", "Dot",
    "N0", "N9", "O", "I", "L", "K", "M", "Comma",
    "N8", "N7", "U", "Y", "H", "J", "N", "Space",
    "N6", "N5", "R", "T", "G", "F", "B", "V",
    "N4", "N3", "E", "W", "S", "D", "C", "X",
    "N1", "N2", "Esc", "Q", "Tab", "A", "CapsLock", "Z",
    "JoyUp", "JoyDown", "JoyLeft", "JoyRight", "Fire2", "Fire1", "Del"]

/-- The place of a key in the matrix, counted line by line. -/
def position (key : Key) : Nat := if key = .del then 79 else key.ctorIdx

/-- The line of the matrix. -/
def line (key : Key) : Nat := key.position / 8

/-- The bit within the line. -/
def bit (key : Key) : Nat := key.position % 8

/-- The bit as a mask. -/
def mask (key : Key) : UInt8 := 1 <<< key.bit.toUInt8

def name (key : Key) : String := names.getD key.ctorIdx ""

def ofName? (name : String) : Option Key := all.find? (·.name == name)

theorem mem_all (key : Key) : key ∈ all := by cases key <;> decide

theorem line_lt (key : Key) : key.line < 10 := by cases key <;> decide

end Key

/-- The lines of the matrix. -/
structure Keyboard where
  lines : Vector UInt8 10 := .replicate 10 0xFF
  deriving DecidableEq, Repr, Inhabited

namespace Keyboard

/-- Presses or releases the keys of a mask on a line. There is nothing on lines past 9. -/
def change (line : Nat) (mask : UInt8) (pressed : Bool) (kb : Keyboard) : Keyboard :=
  if h : line < 10 then
    let bits := kb.lines[line]
    { kb with lines := kb.lines.set line (if pressed then bits &&& ~~~mask else bits ||| mask) }
  else kb

def press (key : Key) (kb : Keyboard) : Keyboard := kb.change key.line key.mask true

def release (key : Key) (kb : Keyboard) : Keyboard := kb.change key.line key.mask false

/-- What a line reads as. Lines past 9 are not connected and show no key. -/
def read (kb : Keyboard) (line : Nat) : UInt8 := kb.lines[line]?.getD 0xFF

def releaseAll (_ : Keyboard) : Keyboard := {}

end Keyboard

end AmstradCpc
