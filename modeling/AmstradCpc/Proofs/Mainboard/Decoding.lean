import AmstradCpc.Proofs.Mainboard.Devices

/-!
# One access, several devices

Every device on the ports looks at one address line and no other, so an access with several lines low
is the same as one access to each of the devices. Their order does not matter: no two devices share a
part of the board but the Gate Array and the selection of the upper ROM, which both work out the
banks, and the banks do not depend on how they were before. A read goes to the devices in the same
way, and yields what the last one that answers would yield by itself (`Mainboard.access_decomposes`).

`Device.write` and `Device.read` say on the chips what one device does.
-/

namespace AmstradCpc

/-! ## Address lines -/

theorem UInt16.or_and_mask (a b mask : UInt16) :
    (a ||| b) &&& mask = (a &&& mask) ||| (b &&& mask) := by
  apply UInt16.toNat_inj.mp
  simp only [UInt16.toNat_and, UInt16.toNat_or, Nat.and_or_distrib_right]

/-! ## The expansion bus -/

namespace Floppy.Controller

/-- A write to the expansion bus: A7 picks the controller out, A8 tells its registers from the motor
switch, and A0 the data register from the status. -/
def busWrite (port : UInt16) (v : UInt8) (c : Controller) : Controller :=
  match Mainboard.low port 0x0080, Mainboard.low port 0x0100, Mainboard.low port 0x0001 with
  | true, true, _ => c.setMotor (v &&& 1 != 0)
  | true, false, false => c.write v
  | _, _, _ => c

/-- A read from the expansion bus, which is low where no register answers. -/
def busRead (port : UInt16) (c : Controller) : UInt8 × Controller :=
  match Mainboard.low port 0x0080, Mainboard.low port 0x0100, Mainboard.low port 0x0001 with
  | true, false, true => (c.status, c)
  | true, false, false => c.read
  | _, _, _ => (0, c)

end Floppy.Controller

namespace Mainboard

/-- A device on the ports. -/
inductive Device
  | gateArray | crtc | romSelect | printer | ppi | expansion
  deriving DecidableEq, Repr

namespace Device

/-- The address line that a device looks at. -/
def line : Device → UInt16
  | .gateArray => 0x8000
  | .crtc => 0x4000
  | .romSelect => 0x2000
  | .printer => 0x1000
  | .ppi => 0x0800
  | .expansion => 0x0400

/-- The lines of all devices. -/
def lines : UInt16 := 0xFC00

/-- What the devices look at besides: lines that tell their registers apart. -/
def registerLines : List UInt16 := [0x0300, 0x0100, 0x0080, 0x0001]

def all : List Device := [.gateArray, .crtc, .romSelect, .printer, .ppi, .expansion]

/-- The devices that an access reaches. -/
def selected (port : UInt16) : List Device := all.filter fun d => low port d.line

/-- The port with the line of one device low and those of the others high. -/
def alone (d : Device) (port : UInt16) : UInt16 := (port ||| lines) &&& ~~~d.line

/-- Whether a device that is read puts a byte on the bus. -/
def answers (port : UInt16) : Device → Bool
  | .crtc => functionOf port == 2 || functionOf port == 3
  | .ppi | .expansion => true
  | .gateArray | .romSelect | .printer => false

/-- The last of the devices that a read reaches and that answer. -/
def lastAnswering (port : UInt16) : Option Device :=
  all.reverse.find? fun d => low port d.line && d.answers port

theorem mem_all (d : Device) : d ∈ all := by
  cases d <;> decide

section Lines

variable (d d' : Device) (port : UInt16)

theorem alone_and {m : UInt16} (hm : m ∈ registerLines) : d.alone port &&& m = port &&& m := by
  have hline : ~~~d.line &&& m = m ∧ lines &&& m = 0 := by
    simp only [registerLines, List.mem_cons, List.not_mem_nil, or_false] at hm
    obtain rfl | rfl | rfl | rfl := hm <;> cases d <;> decide
  rw [alone, UInt16.and_assoc, hline.1, UInt16.or_and_mask, hline.2, UInt16.or_zero]

theorem functionOf_alone : functionOf (d.alone port) = functionOf port := by
  have hshift (p : UInt16) : (p >>> 8) &&& 3 = (p &&& 0x0300) >>> (8 : UInt16) := by
    rw [UInt16.shiftRight_and]
    rfl
  rw [functionOf, functionOf, hshift, hshift, alone_and _ _ (by decide)]

theorem low_alone : low (d.alone port) d'.line = decide (d = d') := by
  rw [low, alone, UInt16.and_assoc]
  by_cases h : d = d'
  · have hoff : ~~~d.line &&& d'.line = 0 := by
      rw [h]
      cases d' <;> decide
    rw [hoff, UInt16.and_zero, decide_eq_true h]
    rfl
  · have hall : ∀ d ∈ all, ∀ d' ∈ all, d ≠ d' →
        ~~~d.line &&& d'.line = d'.line ∧ lines &&& d'.line = d'.line ∧ d'.line ≠ 0 := by
      decide +kernel
    have hon := hall d d.mem_all d' d'.mem_all h
    have hhigh : (port ||| lines) &&& d'.line ≠ 0 := by
      rw [UInt16.or_and_mask, hon.2.1]
      exact fun hzero => hon.2.2 (UInt16.or_eq_zero_iff.mp hzero).2
    rw [hon.1, decide_eq_false h]
    exact beq_eq_false_iff_ne.mpr hhigh

theorem selected_alone : selected (d.alone port) = [d] := by
  simp only [selected, low_alone]
  cases d <;> rfl

end Lines

/-! ## Devices -/

/-- A write to one device, which changes a chip or the banks. -/
def write (d : Device) (port : UInt16) (v : UInt8) (b : Mainboard) : Mainboard :=
  match d with
  | .gateArray =>
    let gateArray := (b.gateArray.write v).2
    let banked := (b.gateArray.write v).1 = .romConfig ∨ (b.gateArray.write v).1 = .ramConfig
    { b with
      gateArray
      memory :=
        if banked then b.memory.remap gateArray.romConfig gateArray.ramConfig else b.memory }
  | .crtc =>
    { b with
      crtc :=
        if functionOf port = 0 then b.crtc.select v
        else if functionOf port = 1 then b.crtc.write v
        else b.crtc }
  | .romSelect =>
    { b with
      memory := (b.memory.selectUpperRom v).remap b.gateArray.romConfig b.gateArray.ramConfig }
  | .printer => { b with printerData := v }
  | .ppi =>
    let p := PpiPort.ofBits (functionOf port)
    let ppi := b.ppi.write p v
    -- the control pins of the sound generator are on port C
    let function := .ofPins (ppi.portCOutput &&& 0x80 != 0) (ppi.portCOutput &&& 0x40 != 0)
    { b with ppi, psg := if p = .b then b.psg else (b.psg.cycle function ppi.portAOutput).2 }
  | .expansion => { b with fdc := b.fdc.busWrite port v }

/-- A read from one device; those that can be written only leave the bus low. -/
def read (d : Device) (port : UInt16) (b : Mainboard) : UInt8 × Mainboard :=
  match d with
  | .crtc =>
    (if functionOf port = 2 then b.crtc.status
      else if functionOf port = 3 then b.crtc.read
      else 0, b)
  | .ppi =>
    match PpiPort.ofBits (functionOf port) with
    | .a =>
      -- the sound generator drives port A while its pins ask for a read
      let psg := { b.psg with portAInput := b.keyboard.read b.keyboardLine.toNat }
      let b :=
        if b.psgFunction = .read then { b with psg, ppi.externalA := psg.read }
        else { b with ppi.externalA := 0xFF }
      (b.ppi.read .a, b)
    | .b =>
      let ppi := { b.ppi with externalB := b.portBInput }
      (ppi.read .b, { b with ppi })
    | p => (b.ppi.read p, b)
  | .expansion => ((b.fdc.busRead port).1, { b with fdc := (b.fdc.busRead port).2 })
  | .gateArray | .romSelect | .printer => (0, b)

end Device

/-! ## What the board does for a device -/

section Board

variable (port : UInt16) (v : UInt8) (b : Mainboard)

theorem writeGateArray_eq : b.writeGateArray v = Device.gateArray.write port v b := by
  unfold writeGateArray Device.write
  dsimp only
  generalize b.gateArray.write v = written
  obtain ⟨register, gateArray⟩ := written
  cases register <;> rfl

theorem writeCrtc_eq : b.writeCrtc (functionOf port) v = Device.crtc.write port v b := by
  unfold writeCrtc Device.write
  dsimp only
  split
  case h_1 h => rw [if_pos h]
  case h_2 h => rw [if_neg (h ▸ by decide), if_pos h]
  case h_3 h0 h1 => rw [if_neg h0, if_neg h1]

theorem writePpi_eq : b.writePpi (.ofBits (functionOf port)) v = Device.ppi.write port v b := by
  unfold Device.write
  dsimp only
  generalize PpiPort.ofBits (functionOf port) = p
  cases p <;> rfl

theorem writeExpansion_eq : b.writeExpansion port v = Device.expansion.write port v b := by
  unfold writeExpansion Device.write Floppy.Controller.busWrite low bne
  cases port &&& 0x0080 == 0 <;> cases port &&& 0x0100 == 0 <;> cases port &&& 0x0001 == 0 <;> rfl

theorem readCrtc_eq : b.readCrtc (functionOf port) = (Device.crtc.read port b).1 := by
  unfold readCrtc Device.read
  dsimp only
  split
  case h_1 h => rw [if_pos h]
  case h_2 h => rw [if_neg (h ▸ by decide), if_pos h]
  case h_3 h2 h3 => rw [if_neg h2, if_neg h3]

theorem readPpi_eq : b.readPpi (.ofBits (functionOf port)) = Device.ppi.read port b := by
  unfold Device.read
  dsimp only
  generalize PpiPort.ofBits (functionOf port) = p
  cases p <;> rfl

theorem readExpansion_eq : b.readExpansion port = Device.expansion.read port b := by
  unfold readExpansion Device.read Floppy.Controller.busRead low bne
  cases port &&& 0x0080 == 0 <;> cases port &&& 0x0100 == 0 <;> cases port &&& 0x0001 == 0 <;> rfl

end Board

section Ports

variable (port : UInt16) (v : UInt8) (b : Mainboard)

theorem output_eq_foldl :
    b.output port v = (Device.selected port).foldl (fun b d => d.write port v b) b := by
  rw [Device.selected, List.foldl_filter]
  simp only [output, writeGateArray_eq port, writeCrtc_eq, writePpi_eq, writeExpansion_eq]
  rfl

theorem snd_input_eq_foldl :
    (b.input port).2 = (Device.selected port).foldl (fun b d => (d.read port b).2) b := by
  rw [Device.selected, List.foldl_filter]
  show (b.input port).2 =
    (let b := if low port 0x8000 then b else b
    let b := if low port 0x4000 then b else b
    let b := if low port 0x2000 then b else b
    let b := if low port 0x1000 then b else b
    let b := if low port 0x0800 then (Device.ppi.read port b).2 else b
    if low port 0x0400 then (Device.expansion.read port b).2 else b)
  simp only [ite_self, input, readPpi_eq, readExpansion_eq]
  cases low port 0x0800 <;> cases low port 0x0400 <;> rfl

end Ports

/-! ## Devices one by one -/

section Alone

variable (d : Device) (port : UInt16) (v : UInt8) (b : Mainboard)

theorem low_registerLine {m : UInt16} (hm : m ∈ Device.registerLines) :
    low (d.alone port) m = low port m := by
  rw [low, d.alone_and port hm, low]

theorem Device.write_alone (d' : Device) : d'.write (d.alone port) v b = d'.write port v b := by
  cases d' <;>
    simp (disch := decide) only [Device.write, functionOf_alone, Floppy.Controller.busWrite,
      low_registerLine]

theorem Device.read_alone (d' : Device) : d'.read (d.alone port) b = d'.read port b := by
  cases d' <;>
    simp (disch := decide) only [Device.read, functionOf_alone, Floppy.Controller.busRead,
      low_registerLine]

theorem output_alone : b.output (d.alone port) v = d.write port v b := by
  rw [output_eq_foldl, Device.selected_alone]
  exact d.write_alone port v b d

theorem input_alone : b.input (d.alone port) = d.read port b := by
  have hlow (d' : Device) := d.low_alone d' port
  have hcrtc := hlow .crtc
  have hppi := hlow .ppi
  have hexpansion := hlow .expansion
  simp only [Device.line] at hcrtc hppi hexpansion
  rw [← d.read_alone port b d]
  cases d <;>
    simp [input, readCrtc_eq, readPpi_eq, readExpansion_eq, hcrtc, hppi, hexpansion] <;> rfl

end Alone

/-! ## Devices together -/

section Together

variable (d : Device) (port : UInt16) (v : UInt8) (b : Mainboard)

-- A change of the banks leaves nothing behind that the next one sees.
theorem Device.romSelect_write_gateArray :
    Device.romSelect.write port v (Device.gateArray.write port v b) =
      Device.gateArray.write port v (Device.romSelect.write port v b) := by
  unfold Device.write
  dsimp only
  obtain ⟨-, h⟩ | ⟨-, h⟩ | ⟨-, -, h⟩ | ⟨-, -, h⟩ | ⟨-, h⟩ := b.gateArray.write_cases v
  all_goals
    rw [h]
    rfl

theorem Device.write_comm (d d' : Device) :
    d.write port v (d'.write port v b) = d'.write port v (d.write port v b) := by
  cases d with
  | gateArray =>
    cases d' with
    | romSelect => exact (Device.romSelect_write_gateArray port v b).symm
    | gateArray | crtc | printer | ppi | expansion => rfl
  | romSelect =>
    cases d' with
    | gateArray => exact Device.romSelect_write_gateArray port v b
    | romSelect | crtc | printer | ppi | expansion => rfl
  | crtc | printer | ppi | expansion => cases d' <;> rfl

-- The parallel interface does not look at the floppy disk controller.
theorem Device.ppi_read_withFdc (fdc : Floppy.Controller) :
    Device.ppi.read port { b with fdc } =
      ((Device.ppi.read port b).1, { (Device.ppi.read port b).2 with fdc }) := by
  have hpins : ({ b with fdc } : Mainboard).psgFunction = b.psgFunction := rfl
  unfold Device.read
  dsimp only
  split
  · rw [hpins]
    split <;> rfl
  · rfl
  · rfl

theorem Device.fdc_ppi_read : (Device.ppi.read port b).2.fdc = b.fdc := by
  unfold Device.read
  dsimp only
  split
  · split <;> rfl
  · rfl
  · rfl

theorem Device.snd_read_comm (d d' : Device) :
    (d.read port (d'.read port b).2).2 = (d'.read port (d.read port b).2).2 := by
  have hppi : (Device.ppi.read port (Device.expansion.read port b).2).2 =
      (Device.expansion.read port (Device.ppi.read port b).2).2 := by
    show (Device.ppi.read port { b with fdc := _ }).2 =
      { (Device.ppi.read port b).2 with fdc := ((Device.ppi.read port b).2.fdc.busRead port).2 }
    rw [Device.ppi_read_withFdc, Device.fdc_ppi_read]
  cases d with
  | ppi =>
    cases d' with
    | expansion => exact hppi
    | gateArray | crtc | romSelect | printer | ppi => rfl
  | expansion =>
    cases d' with
    | ppi => exact hppi.symm
    | gateArray | crtc | romSelect | printer | expansion => rfl
  | gateArray | crtc | romSelect | printer => rfl

theorem lastAnswering_eq :
    Device.lastAnswering port =
      bif low port 0x0400 then some .expansion
      else bif low port 0x0800 then some .ppi
      else bif low port 0x4000 && (functionOf port == 2 || functionOf port == 3) then some .crtc
      else none := by
  simp only [Device.lastAnswering, Device.all, List.reverse_cons, List.reverse_nil, List.nil_append,
    List.cons_append, List.find?_cons, List.find?_nil, Device.line, Device.answers, Bool.and_true,
    Bool.and_false]
  cases low port 0x0400 <;> cases low port 0x0800 <;>
    cases low port 0x4000 && (functionOf port == 2 || functionOf port == 3) <;> rfl

theorem Device.fst_crtc_read_of_silent (h : (functionOf port == 2 || functionOf port == 3) = false) :
    (Device.crtc.read port b).1 = 0 := by
  obtain ⟨h2, h3⟩ := Bool.or_eq_false_iff.mp h
  unfold Device.read
  dsimp only
  rw [if_neg (ne_of_beq_false h2), if_neg (ne_of_beq_false h3)]

theorem fst_input :
    (b.input port).1 = (Device.lastAnswering port).elim 0 fun d => (d.read port b).1 := by
  simp only [input, lastAnswering_eq, readCrtc_eq, readPpi_eq, readExpansion_eq]
  cases low port 0x0400 with
  | true =>
    cases low port 0x0800 with
    | true =>
      show ((Device.ppi.read port b).2.fdc.busRead port).1 = (b.fdc.busRead port).1
      rw [Device.fdc_ppi_read]
    | false => rfl
  | false =>
    cases low port 0x0800 with
    | true => rfl
    | false =>
      cases low port 0x4000 with
      | false => rfl
      | true =>
        cases h : functionOf port == 2 || functionOf port == 3 with
        | true => rfl
        | false => exact Device.fst_crtc_read_of_silent port b h

end Together

/-! ## Decoding -/

/-- An access is the accesses to the single devices that it reaches, in any order, and a read yields
what the last device that answers yields by itself. An access to one device is what the device does
with it. -/
theorem access_decomposes (b : Mainboard) (port : UInt16) (v : UInt8) {ds : List Device}
    (h : ds.Perm (Device.selected port)) :
    (b.output port v = ds.foldl (fun b d => b.output (d.alone port) v) b ∧
      (b.input port).2 = ds.foldl (fun b d => (b.input (d.alone port)).2) b ∧
      (b.input port).1 =
        (Device.lastAnswering port).elim 0 fun d => (b.input (d.alone port)).1) ∧
    (b.output port v = ds.foldl (fun b d => d.write port v b) b ∧
      (b.input port).2 = ds.foldl (fun b d => (d.read port b).2) b ∧
      (b.input port).1 = (Device.lastAnswering port).elim 0 fun d => (d.read port b).1) ∧
    ∀ (d : Device) (b : Mainboard),
      b.output (d.alone port) v = d.write port v b ∧ b.input (d.alone port) = d.read port b := by
  have houtput : b.output port v = ds.foldl (fun b d => d.write port v b) b := by
    rw [output_eq_foldl]
    exact (h.foldl_eq' (fun d _ d' _ b => Device.write_comm port v b d' d) b).symm
  have hinput : (b.input port).2 = ds.foldl (fun b d => (d.read port b).2) b := by
    rw [snd_input_eq_foldl]
    exact (h.foldl_eq' (fun d _ d' _ b => Device.snd_read_comm port b d' d) b).symm
  have hvalue := fst_input port b
  have halone (d : Device) (b : Mainboard) :
      b.output (d.alone port) v = d.write port v b ∧ b.input (d.alone port) = d.read port b :=
    ⟨output_alone d port v b, input_alone d port b⟩
  refine ⟨?_, ⟨houtput, hinput, hvalue⟩, halone⟩
  simp only [output_alone, input_alone]
  exact ⟨houtput, hinput, hvalue⟩

/-- A board with 128 KB of RAM and an upper ROM in slot 129. -/
def withRom : Mainboard where
  memory :=
    { ram := ⟨Array.replicate 0x20000 0⟩
      lowerRom := ⟨Array.replicate 0x4000 0⟩
      upperRoms := (Vector.replicate 256 none).set 129 (some ⟨Array.replicate 0x4000 0⟩) }

/-- The same board with the CRTC's register 14 selected and loaded. -/
def withCursor : Mainboard := (withRom.output 0xBC00 14).output 0xBD00 0x05

-- One write sets the ROM configuration and selects an upper ROM, whichever comes first. One read goes
-- to the parallel interface and to the floppy disk controller, whose status it yields; another to the
-- CRTC alone, which yields its register; and a third goes to the Gate Array, which does not answer.
theorem access_decomposes_shared :
    ([Device.romSelect, .gateArray].Perm (Device.selected 0x5F00) ∧
      withRom.output 0x5F00 0x81 = (withRom.output 0xDF00 0x81).output 0x7F00 0x81) ∧
    ([Device.expansion, .ppi].Perm (Device.selected 0xF37E) ∧
      (withRom.input 0xF37E).2 = ((withRom.input 0xFB7E).2.input 0xF77E).2 ∧
      (withRom.input 0xF37E).1 = (withRom.input 0xFB7E).1 ∧
      (withRom.input 0xF37E).1 = 0x80) ∧
    ([Device.crtc].Perm (Device.selected 0xBF00) ∧ (withCursor.input 0xBF00).1 = 0x05) ∧
    [Device.gateArray].Perm (Device.selected 0x7F00) ∧ (withRom.input 0x7F00).1 = 0 := by
  have hwrite : [Device.romSelect, .gateArray].Perm (Device.selected 0x5F00) := by decide
  have hread : [Device.expansion, .ppi].Perm (Device.selected 0xF37E) := by decide
  have hcrtc : [Device.crtc].Perm (Device.selected 0xBF00) := by decide
  have hsilent : [Device.gateArray].Perm (Device.selected 0x7F00) := by decide
  obtain ⟨⟨houtput, -⟩, -⟩ := access_decomposes withRom 0x5F00 0x81 hwrite
  obtain ⟨⟨-, hboard, hvalue⟩, ⟨-, -, hstatus⟩, -⟩ := access_decomposes withRom 0xF37E 0 hread
  obtain ⟨-, ⟨-, -, hregister⟩, -⟩ := access_decomposes withCursor 0xBF00 0 hcrtc
  obtain ⟨-, ⟨-, -, hnothing⟩, -⟩ := access_decomposes withRom 0x7F00 0 hsilent
  have hlast : Device.lastAnswering 0xF37E = some .expansion := by decide
  have hlastCrtc : Device.lastAnswering 0xBF00 = some .crtc := by decide
  have hnone : Device.lastAnswering 0x7F00 = none := by decide
  rw [hlast] at hvalue hstatus
  rw [hlastCrtc] at hregister
  rw [hnone] at hnothing
  exact ⟨⟨hwrite, houtput⟩, ⟨hread, hboard, hvalue, hstatus⟩, ⟨hcrtc, hregister⟩, hsilent, hnothing⟩

end Mainboard

end AmstradCpc
