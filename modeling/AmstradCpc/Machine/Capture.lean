import AmstradCpc.Machine.Frame

/-!
# Recording frames

A recording is a sequence of frames, each kept as the canvas after it under a numbered name.
-/

namespace AmstradCpc.Machine

/-- The name of picture `n` of a recording, with six digits or more. -/
def pictureName (n : Nat) : String :=
  let digits := toString n
  "".pushn '0' (6 - digits.length) ++ digits ++ ".png"

/-- Runs `count` frames at the time `now` and keeps their pictures, numbered from `first` on. -/
def record (now first : Nat) : Nat → Machine → List (String × Framebuffer) × Machine
  | 0, m => ([], m)
  | count + 1, m =>
    let m := (m.tick now).2
    let (rest, m') := record now (first + 1) count m
    ((pictureName first, m.framebuffer) :: rest, m')

end AmstradCpc.Machine
