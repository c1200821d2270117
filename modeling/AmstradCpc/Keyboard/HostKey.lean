import AmstradCpc.Keyboard

/-!
# Keys of the host

A key of the host is known by its place on a standard keyboard, under the name that toolkits report
for it, such as `KeyA` or `BracketLeft`. Because places are matched and not characters, the layout
plays no part: a French host keyboard drives a French machine key for key.
-/

namespace AmstradCpc.Key

/-- Keys of the host and the keys of the machine in their places. -/
def hostKeys : List (String × Key) :=
  [("KeyA", .a), ("KeyB", .b), ("KeyC", .c), ("KeyD", .d), ("KeyE", .e), ("KeyF", .f),
    ("KeyG", .g), ("KeyH", .h), ("KeyI", .i), ("KeyJ", .j), ("KeyK", .k), ("KeyL", .l),
    ("KeyM", .m), ("KeyN", .n), ("KeyO", .o), ("KeyP", .p), ("KeyQ", .q), ("KeyR", .r),
    ("KeyS", .s), ("KeyT", .t), ("KeyU", .u), ("KeyV", .v), ("KeyW", .w), ("KeyX", .x),
    ("KeyY", .y), ("KeyZ", .z),
    ("Digit0", .n0), ("Digit1", .n1), ("Digit2", .n2), ("Digit3", .n3), ("Digit4", .n4),
    ("Digit5", .n5), ("Digit6", .n6), ("Digit7", .n7), ("Digit8", .n8), ("Digit9", .n9),
    ("Minus", .minus), ("Equal", .caret), ("BracketLeft", .at), ("BracketRight", .leftBracket),
    ("Semicolon", .colon), ("Quote", .semicolon), ("Backslash", .rightBracket),
    ("IntlBackslash", .backslash), ("Comma", .comma), ("Period", .dot), ("Slash", .slash),
    ("Escape", .esc), ("Tab", .tab), ("CapsLock", .capsLock),
    ("ShiftLeft", .shift), ("ShiftRight", .shift),
    ("ControlLeft", .control), ("ControlRight", .control),
    ("AltLeft", .copy), ("AltRight", .copy),
    ("Enter", .return), ("Space", .space), ("Backspace", .del), ("Delete", .clr),
    ("ArrowUp", .up), ("ArrowDown", .down), ("ArrowLeft", .left), ("ArrowRight", .right),
    ("Numpad0", .f0), ("Numpad1", .f1), ("Numpad2", .f2), ("Numpad3", .f3), ("Numpad4", .f4),
    ("Numpad5", .f5), ("Numpad6", .f6), ("Numpad7", .f7), ("Numpad8", .f8), ("Numpad9", .f9),
    ("F1", .f1), ("F2", .f2), ("F3", .f3), ("F4", .f4), ("F5", .f5), ("F6", .f6), ("F7", .f7),
    ("F8", .f8), ("F9", .f9), ("F10", .f0),
    ("NumpadDecimal", .keypadDot), ("NumpadEnter", .keypadEnter)]

/-- The key in the place of a key of the host. -/
def ofHost? (code : String) : Option Key := hostKeys.lookup code

end AmstradCpc.Key
