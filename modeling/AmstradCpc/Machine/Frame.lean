import AmstradCpc.Machine
import AmstradCpc.Screen.Picture
import AmstradCpc.Z80.Step

/-!
# Frames

A frame is 312 scanlines. The CPU runs for 256 T-states in each of them and then polls the bus,
which counts the scanline. After the frame the picture is drawn, unless the host has fallen behind and may
leave it out.
-/

namespace AmstradCpc

/-- What happened in a frame. -/
structure FrameReport where
  /-- Interrupts raised. -/
  interrupts : Nat
  /-- Vertical syncs begun. -/
  vsyncGroups : Nat
  rendered : Bool
  deriving DecidableEq, Repr, Inhabited

namespace Machine

def linesPerFrame : Nat := 312

/-! ## Scanlines -/

/-- Drops a request that the CPU has latched but that the Gate Array has taken back. -/
def dropStaleRequest (s : Z80.System Mainboard) : Z80.System Mainboard :=
  if s.cpu.intPending && !s.bus.gateArray.intRequest then
    { s with cpu := s.cpu.clearInterrupt }
  else s

def runLine (s : Z80.System Mainboard) : Z80.System Mainboard := dropStaleRequest s.runPeriod.2

def runLines : Nat → Z80.System Mainboard → Z80.System Mainboard
  | 0, s => s
  | n + 1, s => runLines n (runLine s)

/-! ## Pictures -/

/-- Whether to draw the picture of a frame that ends at `now`. With frame skipping on, one that took
longer than its refresh rate allows is left out. -/
def frameDue (now : Nat) (m : Machine) : Bool :=
  !m.config.frameSkip ||
    match m.lastFrame with
    | none => true
    | some last => now - last ≤ m.config.refresh.frameMicros * 1000

/-- Draws the picture. -/
def render (m : Machine) : Machine :=
  let fb := m.framebuffer
  { m with
    framebuffer.data :=
      Picture.draw fb.format fb.monitor m.board.crtc m.board.gateArray m.board.memory }

/-- Ends a frame at `now`: draws its picture if it is due, and counts. -/
def endFrame (now : Nat) (m : Machine) : Bool × Machine :=
  let due := m.frameDue now
  let m := if due then m.render else m
  let s := m.statistics
  (due, { m with
    lastFrame := some now
    frameCount := m.frameCount + 1
    statistics :=
      { frames := s.frames + 1
        rendered := if due then s.rendered + 1 else s.rendered
        skipped := if due then s.skipped else s.skipped + 1 } })

/-! ## Frames -/

/-- Presses and releases the keys that are due. -/
def processKeys (m : Machine) : Machine :=
  let (queue, keyboard) := m.queue.process m.frameCount m.board.keyboard
  { m with queue, system.bus.keyboard := keyboard }

/-- Turns the undefined opcodes that the CPU has met into notices. -/
def collectUndefined (m : Machine) : Machine :=
  { m with
    notices := m.system.undefined.foldl (fun ns u => ns.push (.undefinedOpcode u)) m.notices
    system.undefined := #[] }

/-- Runs a frame that ends at `now`. -/
def tick (now : Nat) (m : Machine) : FrameReport × Machine :=
  let m := m.processKeys
  let (interrupts, vsyncGroups) := (m.board.interrupts, m.board.vsyncGroups)
  let m := { m with system := runLines linesPerFrame m.system }
  let (rendered, m) := m.collectUndefined.endFrame now
  ({ interrupts := m.board.interrupts - interrupts
     vsyncGroups := m.board.vsyncGroups - vsyncGroups
     rendered }, m)

end Machine

end AmstradCpc
