import AmstradCpc.Proofs.Machine.Frames
import AmstradCpc.Proofs.Mainboard.WholeMemories

/-!
# The banks of a machine

Whatever a host does with a machine, its memory is the documented one and its tables of banks are up
to date (`Machine.Reachable.banked`): power-on works them out, every call keeps them in step with
the registers, and a snapshot works them out anew, of a memory that is whole (`Memory.Whole`).
-/

namespace AmstradCpc

open Z80 (BusCall replay)

theorem Mainboard.Banked.replay {b : Mainboard} {m : BankedMemory} (h : b.Banked m)
    (calls : List BusCall) : ∃ m', (replay calls b).Banked m' := by
  refine Z80.replay_keeps (P := fun b : Mainboard => ∃ m', b.Banked m') (fun c b hb => ?_) calls
    ⟨m, h⟩
  obtain ⟨m', hb⟩ := hb
  exact ⟨_, hb.step (.bus c)⟩

/-! ## Machines -/

namespace Machine

variable {config : Config} {m : Machine}

-- The upper ROMs of a configuration are put into their slots one after the other.
theorem foldl_install_of_loadUpperRoms {roms : List (UInt8 × ByteArray)} {mem mem' : Memory}
    (h : roms.foldlM (fun m (slot, image) => m.loadUpperRom slot image) mem = .ok mem') :
    roms.foldl Memory.install mem = mem' := by
  induction roms generalizing mem with
  | nil => exact Except.ok.inj h
  | cons rom roms ih =>
    rw [List.foldlM_cons] at h
    obtain ⟨next, hnext, hrest⟩ := bind_ok h
    have hload : mem.loadUpperRom rom.1 rom.2 = .ok next := hnext
    have hinstall : mem.install rom = next := by
      unfold Memory.install
      rw [hload]
    rw [List.foldl_cons, hinstall]
    exact ih hrest

-- The memory that is built is the one that the configuration asks for.
theorem banked_buildMemory {mem : Memory} (h : buildMemory config = .ok mem) :
    ({ memory := mem } : Mainboard).Banked
      ((BankedMemory.powerOn config.ramKb config.systemRom).installAll config.upperRoms) := by
  obtain ⟨base, hbase, hroms⟩ := bind_ok h
  have hpower : ({ memory := base } : Mainboard).Banked (.powerOn config.ramKb config.systemRom) :=
    Refines.powerOn hbase
  have hinstalled := Refines.installAll hpower rfl config.upperRoms
  rw [foldl_install_of_loadUpperRoms hroms] at hinstalled
  exact hinstalled

-- A reset, with which power-on ends, keeps it so.
theorem banked_build (h : Machine.build config = .ok m) :
    m.board.Banked
      ((BankedMemory.powerOn config.ramKb config.systemRom).installAll config.upperRoms).reset := by
  obtain ⟨mem, hmem, hm⟩ := bind_ok h
  have hbuilt := banked_buildMemory hmem
  cases hm
  let board : Mainboard :=
    { memory := mem, manufacturer := config.manufacturer.code, refresh50 := config.refresh = .hz50 }
  exact Mainboard.Banked.reset (b := board) hbuilt

-- A snapshot that fits leaves the size of the RAM and the ROMs as they are.
theorem fittings_restore {s : Snapshot} (hfits : s.ram.size ≤ m.board.memory.ram.size) :
    (m.restore s).board.memory.fittings = m.board.memory.fittings := by
  have hsize : (m.board.memory.loadRam s.ram).ram.size = m.board.memory.ram.size :=
    Memory.size_loadRam hfits
  exact congrArg (·, m.board.memory.lowerRom, m.board.memory.upperRoms) hsize

-- Its tables are worked out from its configurations.
theorem banked_restore (h : m.board.memory.Whole) {s : Snapshot}
    (hfits : s.ram.size ≤ m.board.memory.ram.size) : ∃ M, (m.restore s).board.Banked M :=
  (h.of_fittings (fittings_restore hfits)).exists_refines (Memory.mapped_remap _ _ _)

theorem banked_apply {M : BankedMemory} (h : m.board.Banked M) (a : Action) :
    ∃ M', (a.apply m).board.Banked M' := by
  rcases a.apply_cases m with ⟨now, ha⟩ | ha | ⟨s, notices, -, hfits, ha⟩ | ⟨_, _, _, _, ha⟩ <;>
    rw [ha]
  · rw [board_tick]
    exact Mainboard.Banked.replay (b := m.processKeys.board) h _
  · exact ⟨_, h.reset⟩
  · exact banked_restore (m := { m with notices }) (Refines.whole h) hfits
  · exact ⟨M, h⟩

/-- The memory of every machine that a host can get is the documented one, and its tables of banks
are up to date. -/
theorem Reachable.banked (h : Reachable config m) : ∃ M, m.board.Banked M := by
  induction h with
  | build h => exact ⟨_, banked_build h⟩
  | act _ a ih =>
    obtain ⟨M, hM⟩ := ih
    exact banked_apply hM a

end Machine

end AmstradCpc
