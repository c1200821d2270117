import AmstradCpc.Proofs.Mainboard.Decoding
import AmstradCpc.Word

/-!
# Reaching the sound generator

A program reaches the sound generator over the parallel interface: port A is its bus, and the two
top bits of port C are its control pins. What a write to port C asks of the generator hangs on the
mode of the interface and on its latches. A mode byte clears the latches, so it leaves the pins at
rest where port C is an output, whatever they asked for before; from then on they ask for what is
written to port C and for nothing else (`Mainboard.output_mode`, `Mainboard.latched_output_portC`).

So the sequences by which registers are written and lines of the keyboard are read work on any
board, however it has been left (`Mainboard.sound_accessed`).
-/

namespace AmstradCpc

namespace Psg

theorem register_write (psg : Psg) (v : UInt8) (k : Nat) :
    (psg.write v).register k =
      if k % 16 = psg.selected.toNat % 16 then v &&& widths[psg.selected.toNat % 16]
      else psg.register k := by
  simp only [write, setRegister, register, Vector.getElem_set]
  congr 1
  exact propext eq_comm

theorem read_portA {psg : Psg} (hselected : psg.selected = 14)
    (hinput : psg.register 7 &&& 0x40 = 0) : psg.read = psg.portAInput := by
  have hport : (psg.selected == 14 && psg.mixer &&& 0x40 == 0) = true := by
    rw [hselected, show psg.mixer = psg.register 7 from rfl, hinput]
    rfl
  exact if_pos hport

end Psg

namespace Mainboard

/-- Writes to ports, one after another. -/
def outputs (accesses : List (UInt16 × UInt8)) (b : Mainboard) : Mainboard :=
  accesses.foldl (fun b access => b.output access.1 access.2) b

/-- Puts a register's number on the bus and selects the register. -/
def selection (r : UInt8) : List (UInt16 × UInt8) :=
  [(0xF700, 0x82), (0xF400, r), (0xF600, 0xC0), (0xF600, 0x00)]

/-- Selects a register and writes it. -/
def registerWrite (r v : UInt8) : List (UInt16 × UInt8) :=
  selection r ++ [(0xF400, v), (0xF600, 0x80), (0xF600, 0x00)]

/-- Selects the generator's port A, turns port A of the interface around, and asks for a line. -/
def lineRequest (line : UInt8) : List (UInt16 × UInt8) :=
  selection 14 ++ [(0xF700, 0x92), (0xF600, 0x40 ||| line)]

/-- The board with a mode and latches of the parallel interface, and with a sound generator. -/
def latched (b : Mainboard) (mode a c : UInt8) (psg : Psg) : Mainboard :=
  { b with ppi := { b.ppi with control := mode, portA := a, portB := 0, portC := c }, psg }

/-- What a byte on port C asks of the sound generator. -/
def pins (c : UInt8) : PsgFunction := .ofPins (c &&& 0x80 != 0) (c &&& 0x40 != 0)

/-- What is on the bus of the sound generator: nothing but ones while port A is an input. -/
def bus (mode a : UInt8) : UInt8 := if mode &&& 0x10 != 0 then 0xFF else a

/-- A mode byte that makes port C an output. -/
def DrivesPins (mode : UInt8) : Prop := mode &&& 0x89 = 0x80

section

variable (b : Mainboard) {mode : UInt8} (hmode : DrivesPins mode) (a c v : UInt8) (psg : Psg)

theorem pins_of_rest (hc : c &&& 0xC0 = 0) : pins c = .inactive := by
  have hbit (mask : UInt8) (hmask : 0xC0 &&& mask = mask) : c &&& mask = 0 := by
    rw [← hmask, ← UInt8.and_assoc, hc, UInt8.zero_and]
  unfold pins
  rw [hbit 0x80 rfl, hbit 0x40 rfl]
  rfl

include hmode

/-! ## One write -/

theorem DrivesPins.and_eq {mask : UInt8} (hmask : 0x89 &&& mask = mask) :
    mode &&& mask = 0x80 &&& mask := by
  rw [show mode &&& mask = mode &&& 0x89 &&& mask by rw [UInt8.and_assoc, hmask], hmode]

theorem portCOutput_latched : (b.latched mode a c psg).ppi.portCOutput = c := by
  have hupper : mode &&& 0x08 = 0 := hmode.and_eq (by decide)
  have hlower : mode &&& 0x01 = 0 := hmode.and_eq (by decide)
  show c ||| ((if mode &&& 0x08 != 0 then 0xF0 else 0) |||
    if mode &&& 0x01 != 0 then 0x0F else 0) = c
  rw [hupper, hlower]
  exact UInt8.or_zero

theorem psgFunction_latched : (b.latched mode a c psg).psgFunction = pins c := by
  unfold psgFunction pins
  rw [b.portCOutput_latched hmode]

-- The generator sees what the interface drives behind the write.
theorem writePpi_latched (port : PpiPort) (hport : port ≠ .b)
    (hppi : b.ppi.write port v = (b.latched mode a c b.psg).ppi) :
    b.writePpi port v = b.latched mode a c (b.psg.cycle (pins c) (bus mode a)).2 := by
  have hwrite : b.writePpi port v = { b with
      ppi := b.ppi.write port v
      psg := (b.psg.cycle ({ b with ppi := b.ppi.write port v } : Mainboard).psgFunction
        (b.ppi.write port v).portAOutput).2 } := by
    cases port with
    | b => exact absurd rfl hport
    | a | c | control => rfl
  have hpins : ({ b with ppi := b.ppi.write port v } : Mainboard).psgFunction = pins c := by
    rw [hppi]
    exact psgFunction_latched b hmode a c b.psg
  rw [hwrite, hpins, hppi]
  rfl

/-- A mode byte leaves the control pins at rest. -/
theorem output_mode : b.output 0xF700 mode = b.latched mode 0 0 b.psg := by
  have hset : (mode &&& 0x80 != 0) = true := by
    rw [hmode.and_eq (by decide)]
    rfl
  rw [show b.output 0xF700 mode = b.writePpi .control mode from output_alone .ppi 0xF700 mode b]
  exact b.writePpi_latched hmode 0 0 mode .control (by decide) (if_pos hset)

/-- A byte on port A is not latched by the generator while its control pins are at rest. -/
theorem latched_output_portA (hc : c &&& 0xC0 = 0) :
    (b.latched mode a c psg).output 0xF400 v = b.latched mode v c psg := by
  have hwrite := (b.latched mode a c psg).writePpi_latched hmode v c v .a (by decide) rfl
  rw [pins_of_rest c hc] at hwrite
  exact (output_alone .ppi 0xF400 v _).trans hwrite

/-- A byte on port C puts its two top bits on the control pins, and the generator does with its bus
what they ask for. -/
theorem latched_output_portC :
    (b.latched mode a c psg).output 0xF600 v =
      b.latched mode a v (psg.cycle (pins v) (bus mode a)).2 := by
  have hwrite := (b.latched mode a c psg).writePpi_latched hmode a v v .c (by decide) rfl
  exact (output_alone .ppi 0xF600 v _).trans hwrite

end

/-! ## Sequences -/

section

variable (b : Mainboard)

@[simp] theorem outputs_nil : b.outputs [] = b := rfl

@[simp] theorem outputs_cons (port : UInt16) (v : UInt8) (accesses : List (UInt16 × UInt8)) :
    b.outputs ((port, v) :: accesses) = (b.output port v).outputs accesses := rfl

theorem outputs_append (accesses accesses' : List (UInt16 × UInt8)) :
    b.outputs (accesses ++ accesses') = (b.outputs accesses).outputs accesses' :=
  List.foldl_append

/-- Whatever the interface and the generator have been left with, a register is selected. -/
theorem outputs_selection (r : UInt8) :
    b.outputs (selection r) = b.latched 0x82 r 0x00 (b.psg.select r) := by
  have hmode : DrivesPins 0x82 := rfl
  rw [selection, outputs_cons, outputs_cons, outputs_cons, outputs_cons, outputs_nil,
    b.output_mode hmode, b.latched_output_portA hmode _ _ _ _ rfl,
    b.latched_output_portC hmode, b.latched_output_portC hmode]
  rfl

theorem outputs_registerWrite (r v : UInt8) :
    b.outputs (registerWrite r v) = b.latched 0x82 v 0x00 ((b.psg.select r).write v) := by
  have hmode : DrivesPins 0x82 := rfl
  rw [registerWrite, outputs_append, outputs_selection, outputs_cons, outputs_cons, outputs_cons,
    outputs_nil, b.latched_output_portA hmode _ _ _ _ rfl, b.latched_output_portC hmode,
    b.latched_output_portC hmode]
  rfl

theorem and_of_lt {line : UInt8} (hline : line < 16) : line &&& 0x0F = line := by
  refine UInt8.toNat_inj.mp ?_
  rw [UInt8.toNat_and]
  exact Nat.and_two_pow_sub_one_of_lt_two_pow (n := 4) (UInt8.lt_iff_toNat_lt.mp hline)

theorem pins_line {line : UInt8} (hline : line < 16) : pins (0x40 ||| line) = .read := by
  have hbit (mask : UInt8) (hmask : 0x0F &&& mask = 0) : line &&& mask = 0 := by
    rw [← and_of_lt hline, UInt8.and_assoc, hmask, UInt8.and_zero]
  unfold pins
  rw [UInt8.or_and_mask, UInt8.or_and_mask, hbit 0x80 rfl, hbit 0x40 rfl]
  rfl

theorem outputs_lineRequest {line : UInt8} (hline : line < 16) :
    b.outputs (lineRequest line) = b.latched 0x92 0x00 (0x40 ||| line) (b.psg.select 14) := by
  have hmode : DrivesPins 0x92 := rfl
  rw [lineRequest, outputs_append, outputs_selection, outputs_cons, outputs_cons, outputs_nil,
    output_mode _ hmode]
  refine (b.latched_output_portC hmode _ _ _ _).trans ?_
  rw [pins_line hline]
  rfl

theorem keyboardLine_latched {line : UInt8} (hline : line < 16) (psg : Psg) :
    (b.latched 0x92 0x00 (0x40 ||| line) psg).keyboardLine = line := by
  have hmode : DrivesPins 0x92 := rfl
  rw [keyboardLine, b.portCOutput_latched hmode, UInt8.or_and_mask, and_of_lt hline]
  exact UInt8.zero_or

-- The levels on both ports A are driven anew.
theorem fst_readPpi_a (hpins : b.psgFunction = .read) (hinput : b.ppi.portAIsInput = true) :
    (b.readPpi .a).1 =
      { b.psg with portAInput := b.keyboard.read b.keyboardLine.toNat : Psg }.read := by
  show b.drivePortA.ppi.read .a = _
  unfold drivePortA
  rw [if_pos hpins]
  exact if_pos hinput

theorem input_lineRequest {line : UInt8} (hline : line < 16)
    (hinput : b.psg.register 7 &&& 0x40 = 0) :
    ((b.outputs (lineRequest line)).input 0xF400).1 = b.keyboard.read line.toNat := by
  have hmode : DrivesPins 0x92 := rfl
  have hpins : (b.latched 0x92 0x00 (0x40 ||| line) (b.psg.select 14)).psgFunction = .read := by
    rw [b.psgFunction_latched hmode, pins_line hline]
  rw [outputs_lineRequest b hline, show input 0xF400 _ = _ from input_alone .ppi 0xF400 _]
  refine (fst_readPpi_a _ hpins (show ((0x92 : UInt8) &&& 0x10 != 0) = true from rfl)).trans ?_
  rw [keyboardLine_latched b hline]
  exact Psg.read_portA rfl hinput

/-! ## Main statement -/

/-- However a board has been left, a register of the sound generator is written by seven writes to
ports, and nothing else is changed but the parallel interface; and a line of the keyboard is read
after six, where the generator's port A is an input. -/
theorem sound_accessed (b : Mainboard) :
    (∀ r < 16, ∀ v,
      (b.outputs (registerWrite r v)).psg.register r.toNat = v &&& Psg.widths[r.toNat % 16] ∧
      (b.outputs (registerWrite r v)).psg.selected = r ∧
      (∀ k < 16, k ≠ r.toNat →
        (b.outputs (registerWrite r v)).psg.register k = b.psg.register k) ∧
      { b.outputs (registerWrite r v) with ppi := b.ppi, psg := b.psg } = b) ∧
    (b.psg.register 7 &&& 0x40 = 0 → ∀ line < 16,
      ((b.outputs (lineRequest line)).input 0xF400).1 =
        if h : line.toNat < 10 then b.keyboard.lines[line.toNat] else 0xFF) := by
  refine ⟨fun r hr v => ?_, fun hinput line hline => ?_⟩
  · have hselected : (b.psg.select r).selected = r := and_of_lt hr
    have hr' : r.toNat % 16 = r.toNat := Nat.mod_eq_of_lt (UInt8.lt_iff_toNat_lt.mp hr)
    have hregister (k : Nat) := (b.psg.select r).register_write v k
    simp only [hselected] at hregister
    rw [outputs_registerWrite]
    refine ⟨(hregister _).trans (if_pos rfl), hselected, fun k hk hne => ?_, rfl⟩
    rw [← Nat.mod_eq_of_lt hk, ← hr'] at hne
    exact (hregister k).trans (if_neg hne)
  · rw [input_lineRequest b hline hinput]
    unfold Keyboard.read
    split
    case isTrue h => rw [Vector.getElem?_eq_getElem h, Option.getD_some]
    case isFalse h => rw [Vector.getElem?_eq_none (Nat.not_lt.mp h), Option.getD_none]

end

/-- A board on which register 9 is being written and A is pressed. -/
def writingVolume : Mainboard :=
  { withRom with
    ppi := { control := 0x80, portA := 0x0C, portC := 0x80 }
    psg := ((({} : Psg).select 7).write 0x3F).select 9
    keyboard := ({} : Keyboard).press .a }

theorem sound_accessed_writingVolume :
    (writingVolume.outputs (registerWrite 5 0xFF)).psg.register 5 = 0x0F ∧
      (writingVolume.outputs (registerWrite 5 0xFF)).psg.register 9 = 0x00 ∧
      (writingVolume.outputs (registerWrite 5 0xFF)).memory = writingVolume.memory ∧
      writingVolume.psg.register 7 &&& 0x40 = 0 ∧
      ((writingVolume.outputs (lineRequest 8)).input 0xF400).1 = 0xDF ∧
      ((writingVolume.outputs (lineRequest 12)).input 0xF400).1 = 0xFF := by
  obtain ⟨hwrite, hread⟩ := sound_accessed writingVolume
  obtain ⟨hregister, -, hothers, hrest⟩ := hwrite 5 (by decide) 0xFF
  have hmemory := congrArg Mainboard.memory hrest
  exact ⟨hregister, hothers 9 (by decide) (by decide), hmemory, rfl, hread rfl 8 (by decide),
    hread rfl 12 (by decide)⟩

end Mainboard

end AmstradCpc
