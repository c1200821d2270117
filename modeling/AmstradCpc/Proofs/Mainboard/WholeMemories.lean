import AmstradCpc.Proofs.Mainboard.Banking

/-!
# Whole memories

The sizes of what is fitted do not change while a memory runs: pages of 64 KB of RAM, a lower ROM and
upper ROMs of 16 KB each, one of them in slot 0 (`Memory.Whole`). Such a memory is a documented one
as soon as its tables of banks are up to date (`Memory.Whole.exists_refines`).
-/

namespace AmstradCpc

namespace Memory

/-- The RAM has whole pages of 64 KB and each ROM has 16 KB. One ROM is in slot 0. -/
structure Whole (mem : Memory) : Prop where
  enough : 0x10000 ≤ mem.ram.size
  pages : mem.ram.size % 0x10000 = 0
  lowerRom : mem.lowerRom.size = 0x4000
  upperRom : ∀ slot : UInt8, ∀ rom ∈ mem.upperRoms[slot.toFin], rom.size = 0x4000
  basic : mem.upperRoms[(0 : UInt8).toFin].isSome

/-- What is fitted: so much RAM, and the ROMs. -/
def fittings (mem : Memory) : Nat × ByteArray × Vector (Option ByteArray) 256 :=
  (mem.ram.size, mem.lowerRom, mem.upperRoms)

theorem Whole.of_fittings {mem mem' : Memory} (h : mem.Whole) (heq : mem'.fittings = mem.fittings) :
    mem'.Whole := by
  obtain ⟨hsize, hlower, hupper⟩ : mem'.ram.size = mem.ram.size ∧ mem'.lowerRom = mem.lowerRom ∧
      mem'.upperRoms = mem.upperRoms := by
    simpa only [fittings, Prod.mk.injEq] using heq
  constructor
  · rw [hsize]
    exact h.enough
  · rw [hsize]
    exact h.pages
  · rw [hlower]
    exact h.lowerRom
  · rw [hupper]
    exact h.upperRom
  · rw [hupper]
    exact h.basic

theorem size_loadRam {image : ByteArray} {mem : Memory} (h : image.size ≤ mem.ram.size) :
    (mem.loadRam image).ram.size = mem.ram.size := by
  show (image ++ ⟨Array.replicate (mem.ram.size - image.size) 0⟩ : ByteArray).size = _
  rw [ByteArray.size_append]
  show image.size + (Array.replicate _ _).size = _
  rw [Array.size_replicate]
  omega

end Memory

theorem Refines.whole {r c : UInt8} {mem : Memory} {m : BankedMemory} (h : Refines r c mem m) :
    mem.Whole where
  enough := h.ramSize ▸ h.enough
  pages := h.ramSize ▸ h.pages
  lowerRom := h.lowerRom.1
  upperRom slot rom hrom := by
    have hrel := h.upperRom slot
    rw [Option.mem_def.mp hrom] at hrel
    cases hslot : m.upperRom slot with
    | none =>
      rw [hslot] at hrel
      cases hrel
    | some f =>
      rw [hslot] at hrel
      cases hrel with
      | some hi => exact hi.1
  basic := (isSome_of_rel (h.upperRom 0)).trans h.basic

/-- A whole memory whose tables are up to date is a documented one. -/
theorem Memory.Whole.exists_refines {r c : UInt8} {mem : Memory} (h : mem.Whole)
    (hmapped : mem.Mapped r c) : ∃ m, Refines r c mem m := by
  have hholds (bytes : ByteArray) : Holds bytes fun i => bytes.data.getD i 0 :=
    fun i hi => Array.getElem_eq_getD (h := hi) 0
  refine ⟨{
    ramSize := mem.ram.size
    ram := fun i => mem.ram.data.getD i 0
    lowerRom := fun i => mem.lowerRom.data.getD i 0
    upperRom := fun slot => mem.upperRoms[slot.toFin].map fun rom i => rom.data.getD i 0
    romConfig := r, ramConfig := c, romSelect := mem.romSelect }, ?_⟩
  exact {
    ramSize := rfl
    enough := h.enough
    pages := h.pages
    ram := hholds mem.ram
    lowerRom := ⟨h.lowerRom, hholds mem.lowerRom⟩
    upperRom := fun slot => by
      have hsize := h.upperRom slot
      show Option.Rel IsRom _ (mem.upperRoms[slot.toFin].map _)
      generalize mem.upperRoms[slot.toFin] = rom? at hsize
      cases rom? with
      | none => exact .none
      | some rom => exact .some ⟨hsize rom rfl, hholds rom⟩
    basic := by
      show (mem.upperRoms[(0 : UInt8).toFin].map _).isSome
      rw [Option.isSome_map]
      exact h.basic
    romConfig := rfl
    ramConfig := rfl
    romSelect := rfl
    mapped := hmapped }

end AmstradCpc
