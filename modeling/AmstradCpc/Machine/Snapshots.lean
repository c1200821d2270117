import AmstradCpc.Machine

/-!
# Snapshots of a machine

`Machine.capture` takes the state of a machine as a snapshot and `Machine.loadSna` puts one into a
machine. A file is looked at as a whole before anything is touched, so a bad one leaves the machine
as it was.

Snapshots do not tell whether the CPU is halted. A halted CPU is captured with its program counter
back on the `HALT`, so that it halts again.
-/

namespace AmstradCpc.Machine

/-! ## Loading -/

/-- Loads the registers that a snapshot holds. -/
def restoreRegisters (s : SnapshotCpu) (r : Z80.Registers) : Z80.Registers :=
  { r with
    a := s.a, f := s.f, b := s.b, c := s.c, d := s.d, e := s.e, h := s.h, l := s.l
    a' := s.a', f' := s.f', b' := s.b', c' := s.c', d' := s.d', e' := s.e', h' := s.h', l' := s.l'
    r := s.r, i := s.i, iff1 := s.iff1, iff2 := s.iff2
    ix := s.ix, iy := s.iy, sp := s.sp, pc := s.pc, im := s.im }

/-- Loads the registers of a CRTC. -/
def restoreCrtc (selected : UInt8) (regs : Vector UInt8 18) (crtc : Crtc) : Crtc :=
  (List.finRange 18).foldl (fun crtc (i : Fin 18) => crtc.setRegister i.val regs[i])
    (crtc.select selected)

/-- Loads the registers of a sound generator. -/
def restorePsg (selected : UInt8) (regs : Vector UInt8 16) (psg : Psg) : Psg :=
  ((List.finRange 16).foldl (fun psg (i : Fin 16) => psg.setRegister i.val regs[i]) psg).select
    selected

/-- Brings a board into the state of a snapshot. -/
def restoreBoard (s : Snapshot) (b : Mainboard) : Mainboard :=
  Mainboard.remap { b with
    gateArray :=
      b.gateArray.restore s.pen s.inks s.romConfig s.ramConfig s.lineCounter s.intRequest
    crtc := restoreCrtc s.crtcSelected s.crtcRegs b.crtc
    ppi := b.ppi.restore s.portA s.portB s.portC s.ppiControl
    psg := restorePsg s.psgSelected s.psgRegs b.psg
    memory := (b.memory.selectUpperRom s.romSelect).loadRam s.ram
    fdc := b.fdc.setMotor s.motor }

/-- Brings a machine into the state of a snapshot, whose RAM has to fit. RAM that it does not reach
is cleared. -/
def restore (s : Snapshot) (m : Machine) : Machine :=
  let m := m.reset.mapBoard (restoreBoard s)
  m.mapCpu fun cpu =>
    let cpu := { cpu with regs := restoreRegisters s.cpu cpu.regs }
    if s.intRequest then cpu.interrupt else cpu

/-- The notice that a snapshot is from another model. -/
def modelNotice (s : Snapshot) (running : Model) : Option Notice :=
  if s.version < 2 then none
  else
    match Model.ofSnapshotType? s.cpcType with
    | some taken => if taken = running then none else some (.otherModel taken running)
    | none => none

/-- Loads a snapshot file. -/
def loadSna (file : ByteArray) (m : Machine) : Except LoadError Machine :=
  match Snapshot.ofBytes file with
  | .error e => .error (.format e)
  | .ok s =>
    let installed := m.board.memory.ramKb
    if installed < s.ramKb.toNat then .error (.ramSize s.ramKb.toNat installed)
    else
      let m := (modelNotice s m.config.model).elim m fun n => m.notify n
      .ok (m.restore s)

/-- Loads the snapshot file at a path. One that cannot be used resets the machine. -/
def loadSnapshot (path : String) (file : ByteArray) (m : Machine) :
    Except LoadError Unit × Machine :=
  match m.loadSna file with
  | .ok m => (.ok (), m.notify (.snapshotLoaded path))
  | .error e => (.error e, (m.notify (.snapshotRejected path e)).reset)

/-! ## Saving -/

def captureRegisters (r : Z80.Registers) : SnapshotCpu where
  a := r.a
  f := r.f
  b := r.b
  c := r.c
  d := r.d
  e := r.e
  h := r.h
  l := r.l
  a' := r.a'
  f' := r.f'
  b' := r.b'
  c' := r.c'
  d' := r.d'
  e' := r.e'
  h' := r.h'
  l' := r.l'
  r := r.r
  i := r.i
  iff1 := r.iff1
  iff2 := r.iff2
  ix := r.ix
  iy := r.iy
  sp := r.sp
  pc := if r.halted then r.pc - 1 else r.pc
  im := r.im

/-- The state of a machine. -/
def capture (m : Machine) : Snapshot :=
  let b := m.board
  { version := Snapshot.writtenVersion
    cpu := captureRegisters m.cpu.regs
    pen := b.gateArray.pen
    inks := b.gateArray.inks
    romConfig := b.gateArray.romConfig
    ramConfig := b.gateArray.ramConfig
    crtcSelected := b.crtc.selected
    crtcRegs := b.crtc.regs
    romSelect := b.memory.romSelect
    portA := b.ppi.portA
    portB := b.ppi.portB
    portC := b.ppi.portC
    ppiControl := b.ppi.control
    psgSelected := b.psg.selected
    psgRegs := b.psg.regs
    cpcType := m.config.model.snapshotType
    motor := b.fdc.motor
    crtcType := Crtc.chipType
    lineCounter := b.gateArray.lineCounter
    intRequest := b.gateArray.intRequest
    ram := b.memory.ram }

/-- The state of a machine as a snapshot file. -/
def saveSna (m : Machine) : ByteArray := m.capture.toBytes

end AmstradCpc.Machine
