import AmstradCpc.Keyboard.Layout

/-!
# Timed key presses

Scripted input is a queue of key events, each due at a frame. The queue is kept in the order of the
frames, and events of one frame in the order they were put in.
-/

namespace AmstradCpc

structure KeyEvent where
  frame : Nat
  key : Key
  /-- A press, or a release. -/
  pressed : Bool
  deriving DecidableEq, Repr, Inhabited

/-- The effect of an event on the keyboard. -/
def KeyEvent.apply (kb : Keyboard) (e : KeyEvent) : Keyboard :=
  kb.change e.key.line e.key.mask e.pressed

structure KeyQueue where
  events : List KeyEvent := []
  deriving DecidableEq, Repr, Inhabited

namespace KeyQueue

def length (q : KeyQueue) : Nat := q.events.length

def isEmpty (q : KeyQueue) : Bool := q.events.isEmpty

/-! ## Putting events in -/

/-- Puts an event behind all that are due no later. -/
def insertEvent (e : KeyEvent) : List KeyEvent → List KeyEvent
  | [] => [e]
  | d :: rest => if e.frame < d.frame then e :: d :: rest else d :: insertEvent e rest

def push (e : KeyEvent) (q : KeyQueue) : KeyQueue := { q with events := insertEvent e q.events }

/-- Presses a key at a frame and releases it `hold` frames later. -/
def tap (key : Key) (frame hold : Nat) (q : KeyQueue) : KeyQueue :=
  (q.push { frame, key, pressed := true }).push { frame := frame + hold, key, pressed := false }

/-- How many frames a typed character is held. The firmware scans the keyboard once in a frame. -/
def holdFrames : Nat := 3

/-- How many frames pass from the release of a typed character to the next one. -/
def gapFrames : Nat := 3

/-- Types one character, and gives the next free frame. A character that the keyboard does not have
takes no time. -/
def typeChar (layout : KeyboardLayout) (c : Char) (frame : Nat) (q : KeyQueue) : Nat × KeyQueue :=
  match layout.keys c with
  | [] => (frame, q)
  | keys =>
    (frame + holdFrames + gapFrames, keys.foldl (fun q key => q.tap key frame holdFrames) q)

/-- Types characters from a frame on, and gives the next free frame. -/
def typeChars (layout : KeyboardLayout) : List Char → Nat → KeyQueue → Nat × KeyQueue
  | [], frame, q => (frame, q)
  | c :: rest, frame, q =>
    let (frame, q) := q.typeChar layout c frame
    typeChars layout rest frame q

def type (layout : KeyboardLayout) (text : String) (frame : Nat) (q : KeyQueue) : Nat × KeyQueue :=
  typeChars layout text.toList frame q

/-! ## Taking events out -/

/-- The events due at or before a frame. -/
def due (q : KeyQueue) (frame : Nat) : List KeyEvent := q.events.takeWhile (·.frame ≤ frame)

/-- Applies the due events to the keyboard. -/
def process (frame : Nat) (q : KeyQueue) (kb : Keyboard) : KeyQueue × Keyboard :=
  ({ q with events := q.events.dropWhile (·.frame ≤ frame) },
    (q.due frame).foldl KeyEvent.apply kb)

end KeyQueue

end AmstradCpc
