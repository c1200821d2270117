import AmstradCpc.Proofs.Machine.Reachable

/-!
# A saved machine, loaded again

A snapshot of a reachable machine, loaded into any machine of the same model and with as much RAM,
gives a machine with the same snapshot (`Machine.capture_loadSna`). Restoring masks every register;
the registers of a reachable machine are within the masks, so nothing is lost.
-/

namespace AmstradCpc

/-! ## Chips -/

-- Setting places one after the other leaves the others alone.
theorem get_foldl_set_of_not_mem {α : Type} {n : Nat} (f : Fin n → α) (places : List (Fin n))
    (v : Vector α n) {j : Fin n} (hj : j ∉ places) :
    (places.foldl (fun v i => v.set i.val (f i) i.isLt) v).get j = v.get j := by
  induction places generalizing v with
  | nil => rfl
  | cons i places ih =>
    rw [List.mem_cons, not_or] at hj
    have hne : i.val ≠ j.val := fun h => hj.1 (Fin.ext h.symm)
    rw [List.foldl_cons, ih _ hj.2]
    exact Vector.getElem_set_ne i.isLt j.isLt hne

-- Each place that is set has its new value.
theorem get_foldl_set {α : Type} {n : Nat} (f : Fin n → α) (places : List (Fin n))
    (v : Vector α n) {j : Fin n} (hj : j ∈ places) :
    (places.foldl (fun v i => v.set i.val (f i) i.isLt) v).get j = f j := by
  induction places generalizing v with
  | nil => cases hj
  | cons i places ih =>
    rw [List.foldl_cons]
    -- the last time that a place is set counts
    by_cases hlater : j ∈ places
    · exact ih _ hlater
    · rw [get_foldl_set_of_not_mem f places _ hlater]
      obtain rfl : j = i := (List.mem_cons.mp hj).resolve_right hlater
      exact Vector.getElem_set_self j.isLt

theorem Crtc.regs_foldl_setRegister (regs : Vector UInt8 18) (places : List (Fin 18))
    (crtc : Crtc) :
    (places.foldl (fun crtc i => crtc.setRegister i.val (regs.get i)) crtc).regs =
        places.foldl (fun v i => v.set i.val (regs.get i &&& Crtc.widths.get i) i.isLt) crtc.regs ∧
      (places.foldl (fun crtc i => crtc.setRegister i.val (regs.get i)) crtc).selected =
        crtc.selected := by
  induction places generalizing crtc with
  | nil => exact ⟨rfl, rfl⟩
  | cons i places ih =>
    have hset : crtc.setRegister i.val (regs.get i) =
        { crtc with regs := crtc.regs.set i.val (regs.get i &&& Crtc.widths.get i) i.isLt } := by
      unfold Crtc.setRegister
      rw [dif_pos i.isLt]
      rfl
    rw [List.foldl_cons, List.foldl_cons, hset]
    exact ih _

-- A CRTC in range is restored as it was.
theorem Crtc.Valid.restoreCrtc_eq {crtc : Crtc} (h : crtc.Valid) (other : Crtc) :
    Machine.restoreCrtc crtc.selected crtc.regs other = crtc := by
  obtain ⟨hregs, hselected⟩ :=
    regs_foldl_setRegister crtc.regs (List.finRange 18) (other.select crtc.selected)
  -- every register is set, and its mask takes nothing away
  have hregs' : (Machine.restoreCrtc crtc.selected crtc.regs other).regs = crtc.regs := by
    refine hregs.trans (Vector.ext fun i hi => ?_)
    refine (get_foldl_set _ _ _ (List.mem_finRange ⟨i, hi⟩)).trans ?_
    exact h.regs i hi
  have hselected' : (Machine.restoreCrtc crtc.selected crtc.regs other).selected =
      crtc.selected :=
    hselected.trans h.selected
  generalize Machine.restoreCrtc crtc.selected crtc.regs other = restored at hregs' hselected'
  cases restored
  cases hregs'
  cases hselected'
  rfl

theorem Psg.regs_foldl_setRegister (regs : Vector UInt8 16) (places : List (Fin 16)) (psg : Psg) :
    (places.foldl (fun psg i => psg.setRegister i.val (regs.get i)) psg).regs =
      places.foldl (fun v i => v.set i.val (regs.get i &&& Psg.widths.get i) i.isLt) psg.regs := by
  induction places generalizing psg with
  | nil => rfl
  | cons i places ih =>
    have hset : (psg.setRegister i.val (regs.get i)).regs =
        psg.regs.set i.val (regs.get i &&& Psg.widths.get i) i.isLt := by
      have hmod : i.val % 16 = i.val := Nat.mod_eq_of_lt i.isLt
      unfold Psg.setRegister
      simp only [hmod]
      rfl
    rw [List.foldl_cons, List.foldl_cons, ih, hset]

-- The registers of a sound generator in range are restored as they were.
theorem Psg.Valid.restorePsg_eq {psg : Psg} (h : psg.Valid) (other : Psg) :
    (Machine.restorePsg psg.selected psg.regs other).regs = psg.regs ∧
      (Machine.restorePsg psg.selected psg.regs other).selected = psg.selected := by
  refine ⟨?_, h.selected⟩
  refine (regs_foldl_setRegister psg.regs (List.finRange 16) other).trans ?_
  refine Vector.ext fun i hi => ?_
  refine (get_foldl_set _ _ _ (List.mem_finRange ⟨i, hi⟩)).trans ?_
  exact h.regs i hi

/-- A Gate Array in range is restored as it was, but for the group, which snapshots do not hold. -/
theorem GateArray.Valid.restore_eq {ga : GateArray} (h : ga.Valid) (other : GateArray) :
    other.restore ga.pen ga.inks ga.romConfig ga.ramConfig ga.lineCounter ga.intRequest =
      { ga with group := other.group } := by
  have hpen : (if ga.pen < border then ga.pen else border) = ga.pen := by
    split
    case isTrue => rfl
    case isFalse hlt =>
      -- the border is the one pen that is not below 16
      have hge : 16 ≤ ga.pen.toNat := Nat.le_of_not_lt hlt
      exact UInt8.toNat_inj.mp (Nat.le_antisymm hge h.pen)
  have hinks : ga.inks.map (· &&& 0x1F) = ga.inks := by
    refine Vector.ext fun i hi => ?_
    rw [Vector.getElem_map]
    exact h.inks i hi
  have hline : ga.lineCounter % linesPerInterrupt = ga.lineCounter := by
    refine UInt8.toNat_inj.mp ?_
    rw [UInt8.toNat_mod]
    exact Nat.mod_eq_of_lt h.lineCounter
  unfold restore
  rw [hpen, hinks, h.romConfig, h.ramConfig, hline]

namespace Machine

variable {config : Config} {m : Machine}

/-! ## The file -/

theorem Sound.im_and (h : m.Sound config) : m.cpu.regs.im &&& 3 = m.cpu.regs.im :=
  and_three_of_le h.valid.im

-- A file that was written from a snapshot is loaded as that snapshot, if the machine has RAM for it.
theorem loadSna_toBytes {s : Snapshot} (hversion : s.version = 3)
    (him : s.cpu.im &&& 3 = s.cpu.im) (hram : s.ram.size = s.ramKb.toNat * 1024)
    (hfits : s.ramKb.toNat ≤ m.board.memory.ramKb) :
    m.loadSna s.toBytes =
      .ok (((modelNotice s m.config.model).elim m fun n => m.notify n).restore s) := by
  unfold Machine.loadSna
  rw [Snapshot.ofBytes_toBytes s hversion him hram]
  dsimp only
  rw [if_neg (Nat.not_lt.mpr hfits)]

/-- The machine has room for it if its RAM is as large as that of the snapshot. -/
theorem Sound.loadSna_toBytes (h : m.Sound config) (hmax : config.ramKb ≤ 576) {s : Snapshot}
    (hversion : s.version = 3) (him : s.cpu.im &&& 3 = s.cpu.im)
    (hram : s.ram.size = config.ramKb * 1024) :
    m.loadSna s.toBytes =
      .ok (((modelNotice s m.config.model).elim m fun n => m.notify n).restore s) := by
  have hkb : s.ramKb.toNat = config.ramKb := Snapshot.ramKb_of_size (by omega) hram
  refine Machine.loadSna_toBytes hversion him (by rw [hram, hkb]) ?_
  exact Nat.le_of_eq (hkb.trans h.ramKb_eq.symm)

/-! ## The machine -/

-- Registers that a CPU out of `HALT` takes from a snapshot are captured as they were.
theorem captureRegisters_restoreRegisters (c : SnapshotCpu) {r : Z80.Registers}
    (h : r.halted = false) : captureRegisters (restoreRegisters c r) = c := by
  -- only a halted CPU is captured a byte back
  have hpc : (if (restoreRegisters c r).halted then (restoreRegisters c r).pc - 1
      else (restoreRegisters c r).pc) = c.pc := by
    rw [show (restoreRegisters c r).halted = false from h]
    rfl
  unfold captureRegisters
  rw [hpc]
  rfl

-- RAM of the same size is replaced as a whole.
theorem ram_loadRam {mem : Memory} {image : ByteArray} (h : mem.ram.size = image.size) :
    (mem.loadRam image).ram = image := by
  unfold Memory.loadRam
  rw [h, Nat.sub_self]
  exact ByteArray.append_empty

theorem capture_restore (h : m.Sound config) {other : Machine}
    (hmodel : other.config.model = m.config.model)
    (hram : other.board.memory.ram.size = m.board.memory.ram.size) :
    (other.restore m.capture).capture = m.capture := by
  -- the group is not in the snapshot, so every part that is comes back
  have hga {α : Type} (part : GateArray → α) : part (other.restore m.capture).board.gateArray =
      part { m.board.gateArray with group := other.board.reset.gateArray.group } :=
    congrArg part (h.valid.board.gateArray.restore_eq other.board.reset.gateArray)
  have hcrtc := h.valid.board.crtc.restoreCrtc_eq other.board.reset.crtc
  have hpsg := h.valid.board.psg.restorePsg_eq other.board.reset.psg
  -- latching the request leaves the registers alone
  have hregs : (other.restore m.capture).cpu.regs =
      restoreRegisters m.capture.cpu other.reset.cpu.regs := by
    show Z80.Cpu.regs (if _ then _ else _) = _
    split <;> rfl
  ext : 1
  case version => rfl
  case cpu =>
    show captureRegisters (other.restore m.capture).cpu.regs = m.capture.cpu
    rw [hregs]
    exact captureRegisters_restoreRegisters _ rfl
  case pen => exact hga GateArray.pen
  case inks => exact hga GateArray.inks
  case romConfig => exact hga GateArray.romConfig
  case ramConfig => exact hga GateArray.ramConfig
  case crtcSelected => exact congrArg Crtc.selected hcrtc
  case crtcRegs => exact congrArg Crtc.regs hcrtc
  case romSelect => rfl
  case portA => rfl
  case portB => rfl
  case portC => rfl
  case ppiControl => exact h.valid.board.ppi.control
  case psgSelected => exact hpsg.2
  case psgRegs => exact hpsg.1
  case cpcType => exact congrArg Model.snapshotType hmodel
  case motor => rfl
  case crtcType => rfl
  case lineCounter => exact hga GateArray.lineCounter
  case intRequest => rfl
  case ram => exact ram_loadRam hram

-- The request that the Gate Array of a snapshot makes is latched.
theorem intPending_restore (s : Snapshot) (m : Machine) :
    (m.restore s).cpu.intPending = s.intRequest := by
  show Z80.Cpu.intPending (if s.intRequest then _ else _) = s.intRequest
  cases s.intRequest <;> rfl

/-- A snapshot of a reachable machine loads into every reachable machine of the same model and with
as much RAM, and that machine then has the same snapshot and the same request latched. -/
theorem capture_loadSna {config config' : Config} {m other : Machine} (hm : Reachable config m)
    (ho : Reachable config' other) (hmodel : config'.model = config.model)
    (hram : config'.ramKb = config.ramKb) :
    ∃ loaded, other.loadSna m.saveSna = .ok loaded ∧ loaded.capture = m.capture ∧
      loaded.cpu.intPending = m.cpu.intPending := by
  have hmodel' : other.config.model = m.config.model := by
    rw [ho.sound.model, hm.sound.model, hmodel]
  have hsize : other.board.memory.ram.size = m.board.memory.ram.size := by
    show other.system.bus.memory.ram.size = m.system.bus.memory.ram.size
    rw [ho.sound.valid.board.ramSize, hm.sound.valid.board.ramSize, hram]
  -- the models agree, so there is nothing to notify
  have hnotice : modelNotice m.capture other.config.model = none := by
    have htype : Model.ofSnapshotType? m.capture.cpcType = some other.config.model := by
      rw [hmodel']
      exact Model.ofSnapshotType_snapshotType _
    unfold modelNotice
    rw [htype]
    exact (if_neg (by decide : ¬ Snapshot.writtenVersion < 2)).trans (if_pos rfl)
  have hload := ho.sound.loadSna_toBytes ho.ramKb.2.1 (s := m.capture) rfl hm.sound.im_and
    (hm.sound.valid.board.ramSize.trans (by rw [hram]))
  rw [hnotice] at hload
  refine ⟨other.restore m.capture, hload, capture_restore hm.sound hmodel' hsize, ?_⟩
  rw [intPending_restore]
  exact hm.sound.inStep.symm

/-- A machine that has run two frames is saved and loaded into one that was only just built. -/
theorem capture_loadSna_built : ∃ m other : Machine,
    Machine.build { model := .cpc464, systemRom := ⟨Array.replicate 0x8000 0xC7⟩ } = .ok m ∧
    Machine.build { model := .cpc464, systemRom := ⟨Array.replicate 0x8000 0⟩ } = .ok other ∧
    ∃ loaded, other.loadSna (m.reset.tick 0).2.saveSna = .ok loaded ∧
      loaded.capture = (m.reset.tick 0).2.capture ∧
      loaded.cpu.intPending = (m.reset.tick 0).2.cpu.intPending := by
  have hbuild (v : UInt8) : ∃ m, Machine.build
      { model := .cpc464, systemRom := ⟨Array.replicate 0x8000 v⟩ } = .ok m :=
    exists_build (Nat.le_refl 64) (by decide : 64 ≤ 576) (by decide : 64 % 64 = 0)
      Array.size_replicate (by simp)
  obtain ⟨m, hm⟩ := hbuild 0xC7
  obtain ⟨other, ho⟩ := hbuild 0
  have hrun : Reachable _ (m.reset.tick 0).2 := ((Reachable.build hm).act .reset).act (.tick 0)
  exact ⟨m, other, hm, ho, capture_loadSna hrun (.build ho) rfl rfl⟩

end Machine

end AmstradCpc
