import AmstradCpc.Proofs.Mainboard.WholeMemories

/-!
# Windows on RAM

The four quadrants are windows on different blocks of RAM in every configuration, so no two addresses
reach the same byte (`BankedMemory.place_injective`). What a memory reads after a write follows from
that: the byte written, at the address that was written and if RAM shows there, and everywhere else
what was there (`Memory.read_write`). The byte stays in RAM until another write reaches it, whatever
is banked in the meantime (`Memory.getElem?_ram_run`).
-/

namespace AmstradCpc

namespace BankedMemory

variable (m : BankedMemory)

theorem configured_injective {n q q' : Nat} (hn : n < 8) (hq : q < 4) (hq' : q' < 4)
    (h : configured n q = configured n q') : q = q' := by
  have hall : ∀ n < 8, ∀ q < 4, ∀ q' < 4, configured n q = configured n q' → q = q' := by decide
  exact hall n hn q hq q' hq' h

theorem block_injective {q q' : Nat} (hq : q < 4) (hq' : q' < 4) (h : m.block q = m.block q') :
    q = q' := by
  unfold block at h
  split at h
  · exact h
  · exact configured_injective (Nat.mod_lt _ (by decide)) hq hq' h

theorem quadrant_lt (a : UInt16) : quadrant a < 4 := by
  have ha : a.toNat < 0x10000 := a.toNat_lt
  unfold quadrant
  omega

/-- Two addresses are banked to two bytes of RAM. -/
theorem place_injective {a b : UInt16} (h : m.place a = m.place b) : a = b := by
  have ha : offset a < 0x4000 := Nat.mod_lt _ (by decide)
  have hb : offset b < 0x4000 := Nat.mod_lt _ (by decide)
  -- the blocks from 4 on lie behind the first four, on whichever page
  obtain ⟨hblock, hoffset⟩ :
      m.block (quadrant a) = m.block (quadrant b) ∧ offset a = offset b := by
    unfold place at h
    dsimp only at h
    split at h <;> split at h <;> omega
  have hquadrant := m.block_injective (quadrant_lt a) (quadrant_lt b) hblock
  refine UInt16.toNat_inj.mp ?_
  unfold quadrant at hquadrant
  unfold offset at hoffset
  omega

end BankedMemory

namespace Memory

/-- The byte of RAM that a write to an address reaches. -/
def target (m : Memory) (a : UInt16) : Nat := Bank.position (m.writeBanks.get (quadrant a)) a

/-- RAM shows at an address, and no ROM. -/
def ShowsRam (m : Memory) (a : UInt16) : Prop := (m.readBanks.get (quadrant a)).buffer = .ram

instance (m : Memory) (a : UInt16) : Decidable (m.ShowsRam a) :=
  inferInstanceAs (Decidable (_ = _))

/-! ## One access -/

section Access

variable {r c : UInt8} {m : Memory}

-- Where RAM shows, the banks for reading and for writing are the same.
theorem read_of_showsRam (hmapped : m.Mapped r c) {a : UInt16} (h : m.ShowsRam a) :
    m.read a = m.ram.data.getD (m.target a) 0xFF := by
  have hsame : m.readBanks.get (quadrant a) = m.writeBanks.get (quadrant a) := by
    unfold ShowsRam at h
    rw [hmapped.writes]
    rw [hmapped.reads, readBank_remap] at h ⊢
    split at h
    · cases h
    · split at h
      · cases h
      · rename_i hupper hlower
        rw [if_neg hupper, if_neg hlower]
  rw [read_eq_fetch]
  unfold fetch target
  rw [h, hsame]
  rfl

-- A memory with other RAM still shows the same ROMs.
theorem read_of_rom {m' : Memory} (hbanks : m'.readBanks = m.readBanks)
    (hlower : m'.lowerRom = m.lowerRom) (hupper : m'.upperRoms = m.upperRoms) {a : UInt16}
    (h : ¬ m.ShowsRam a) : m'.read a = m.read a := by
  unfold ShowsRam at h
  have hbuffer : m'.buffer (m.readBanks.get (quadrant a)).buffer =
      m.buffer (m.readBanks.get (quadrant a)).buffer := by
    cases hbank : (m.readBanks.get (quadrant a)).buffer with
    | ram => exact absurd hbank h
    | lowerRom => exact hlower
    | upperRom slot =>
      show m'.upperRoms[slot.toFin].getD .empty = m.upperRoms[slot.toFin].getD .empty
      rw [hupper]
  rw [read_eq_fetch, read_eq_fetch, hbanks]
  unfold fetch
  rw [hbuffer]

variable (hwhole : m.Whole) (hmapped : m.Mapped r c)

include hwhole hmapped

theorem exists_place : ∃ banked : BankedMemory,
    ∀ a, m.target a = banked.place a ∧ banked.place a < m.ram.size := by
  obtain ⟨banked, h⟩ := hwhole.exists_refines hmapped
  refine ⟨banked, fun a => ⟨?_, ?_⟩⟩
  · unfold target
    rw [hmapped.writes]
    exact h.position_eq a
  · rw [h.ramSize]
    exact BankedMemory.place_lt a h.enough h.pages

theorem target_lt (a : UInt16) : m.target a < m.ram.size := by
  obtain ⟨banked, h⟩ := exists_place hwhole hmapped
  rw [(h a).1]
  exact (h a).2

theorem target_injective {a b : UInt16} (h : m.target a = m.target b) : a = b := by
  obtain ⟨banked, hplace⟩ := exists_place hwhole hmapped
  rw [(hplace a).1, (hplace b).1] at h
  exact banked.place_injective h

/-- A ROM shows in the first quadrant while bit 2 of the ROM configuration is clear, and in the last
one while bit 3 is. -/
theorem showsRam_iff (a : UInt16) :
    m.ShowsRam a ↔
      ¬(quadrant a = 0 ∧ r &&& 0x04 = 0) ∧ ¬(quadrant a = 3 ∧ r &&& 0x08 = 0) := by
  -- slot 0 is not empty, so there is always an upper ROM to show
  have hshown : m.upperRoms[(m.shownSlot m.romSelect).toFin].isSome := by
    unfold shownSlot
    split
    · assumption
    · exact hwhole.basic
  have hram : ((ramBanks m.ram.size c).get (quadrant a)).buffer = .ram := by
    show (ramBanks m.ram.size c)[quadrant a].buffer = .ram
    unfold ramBanks
    simp
  unfold ShowsRam
  rw [hmapped.reads, readBank_remap]
  simp only [hshown, and_true]
  by_cases hupper : quadrant a = 3 ∧ r &&& 0x08 = 0
  · simp [hupper]
  · by_cases hlower : quadrant a = 0 ∧ r &&& 0x04 = 0
    · simp [hlower]
    · simp [hupper, hlower, hram]

theorem write_eq (a : UInt16) (v : UInt8) :
    m.write a v = { m with ram := ⟨m.ram.data.setIfInBounds (m.target a) v⟩ } := by
  have hlt := target_lt hwhole hmapped a
  have hset : m.ram.set (m.target a) v hlt = ⟨m.ram.data.setIfInBounds (m.target a) v⟩ :=
    congrArg ByteArray.mk (dif_pos hlt).symm
  rw [← hset]
  unfold write
  exact dif_pos hlt

theorem getElem?_ram_write (a : UInt16) (v : UInt8) (i : Nat) :
    (m.write a v).ram.data[i]? = if i = m.target a then some v else m.ram.data[i]? := by
  have hlt : m.target a < m.ram.data.size := target_lt hwhole hmapped a
  rw [write_eq hwhole hmapped]
  show (m.ram.data.setIfInBounds (m.target a) v)[i]? = _
  rw [Array.getElem?_setIfInBounds]
  by_cases hi : m.target a = i
  · rw [if_pos hi, if_pos hi.symm, if_pos hlt]
  · rw [if_neg hi, if_neg (Ne.symm hi)]

/-- The byte written shows at its address if RAM shows there, and nowhere else. -/
theorem read_write (a b : UInt16) (v : UInt8) :
    (m.write a v).read b = if a = b ∧ m.ShowsRam b then v else m.read b := by
  have hwrite := write_eq hwhole hmapped a v
  by_cases hram : m.ShowsRam b
  · have hmapped' : (m.write a v).Mapped r c := by
      rw [hwrite]
      exact hmapped.withRam _ (Array.size_setIfInBounds ..)
    have hram' : (m.write a v).ShowsRam b := by
      rw [hwrite]
      exact hram
    have htarget : (m.write a v).target b = m.target b := by
      rw [hwrite]
      rfl
    rw [read_of_showsRam hmapped' hram', read_of_showsRam hmapped hram, htarget,
      Array.getD_eq_getD_getElem?, Array.getD_eq_getD_getElem?,
      getElem?_ram_write hwhole hmapped]
    by_cases hab : a = b
    · rw [if_pos (congrArg m.target hab).symm, if_pos ⟨hab, hram⟩]
      rfl
    · have hne : m.target b ≠ m.target a := fun h =>
        hab (target_injective hwhole hmapped h).symm
      rw [if_neg hne, if_neg fun h => hab h.1]
  · rw [if_neg (fun h => hram h.2)]
    refine read_of_rom ?_ ?_ ?_ hram <;> rw [hwrite]

end Access

/-! ## Any changes -/

/-- What can be done to a memory. A ROM that is too large is refused. -/
inductive Change
  | install (slot : UInt8) (image : ByteArray)
  | select (slot : UInt8)
  | remap (romConfig ramConfig : UInt8)
  | write (a : UInt16) (v : UInt8)
  | poke (i : Nat) (v : UInt8)

namespace Change

def apply (m : Memory) : Change → Memory
  | install slot image => m.install (slot, image)
  | select slot => m.selectUpperRom slot
  | remap r c => m.remap r c
  | write a v => m.write a v
  | poke i v => m.poke i v

/-- The change stores into a byte of RAM. -/
def Stores (m : Memory) (i : Nat) : Change → Prop
  | write a _ => m.target a = i
  | poke j _ => j = i
  | _ => False

end Change

/-- None of the changes stores into a byte of RAM. -/
def Spares (i : Nat) : List Change → Memory → Prop
  | [], _ => True
  | change :: changes, m => ¬ change.Stores m i ∧ Spares i changes (change.apply m)

section Run

variable {m : Memory}

theorem whole_of_build {ramKb : Nat} {systemRom : ByteArray}
    (h : Memory.build ramKb systemRom = .ok m) : m.Whole := (Refines.powerOn h).whole

theorem fittings_poke (i : Nat) (v : UInt8) : (m.poke i v).fittings = m.fittings := by
  unfold poke
  split
  · exact congrArg (·, m.lowerRom, m.upperRoms) (Array.size_set _)
  · rfl

theorem Whole.install (h : m.Whole) (slot : UInt8) (image : ByteArray) :
    (m.install (slot, image)).Whole := by
  unfold Memory.install loadUpperRom bankSize
  dsimp only
  by_cases hsize : image.size ≤ 0x4000
  · rw [if_neg (by omega)]
    refine { h with upperRom := fun s rom hs => ?_, basic := ?_ }
    · dsimp only at hs
      rw [Refines.getElem_set_slot] at hs
      split at hs
      · cases hs
        exact (Refines.isRom_padded hsize).1
      · exact h.upperRom s rom hs
    · show (m.upperRoms.set slot.toFin _)[(0 : UInt8).toFin].isSome
      rw [Refines.getElem_set_slot]
      split
      · rfl
      · exact h.basic
  · rw [if_pos (by omega)]
    exact h

-- A write is a poke at the place where its address is banked.
theorem Whole.apply (h : m.Whole) (change : Change) : (change.apply m).Whole := by
  cases change with
  | install slot image => exact h.install slot image
  | select slot => exact h.of_fittings rfl
  | remap r c => exact h.of_fittings rfl
  | write a v => exact h.of_fittings (fittings_poke (m.target a) v)
  | poke i v => exact h.of_fittings (fittings_poke i v)

theorem Whole.run (h : m.Whole) (changes : List Change) : (changes.foldl Change.apply m).Whole := by
  induction changes generalizing m with
  | nil => exact h
  | cons change changes ih => exact ih (h.apply change)

theorem getElem?_ram_poke {i j : Nat} (hj : j ≠ i) (v : UInt8) :
    (m.poke j v).ram.data[i]? = m.ram.data[i]? := by
  unfold poke
  split
  · rename_i hlt
    exact Array.getElem?_set_ne hlt hj
  · rfl

theorem ram_install (rom : UInt8 × ByteArray) : (m.install rom).ram = m.ram := by
  unfold Memory.install loadUpperRom
  split
  · rename_i hload
    split at hload
    · cases hload
    · cases hload
      rfl
  · rfl

theorem getElem?_ram_apply {i : Nat} {change : Change} (h : ¬ change.Stores m i) :
    (change.apply m).ram.data[i]? = m.ram.data[i]? := by
  cases change with
  | install slot image => exact congrArg (·.data[i]?) (ram_install (slot, image))
  | select slot => rfl
  | remap r c => rfl
  | write a v => exact getElem?_ram_poke h v
  | poke j v => exact getElem?_ram_poke h v

/-- A byte of RAM stays what it is, whatever is banked, until it is stored into. -/
theorem getElem?_ram_run {i : Nat} {changes : List Change} (h : Spares i changes m) :
    (changes.foldl Change.apply m).ram.data[i]? = m.ram.data[i]? := by
  induction changes generalizing m with
  | nil => rfl
  | cons change changes ih =>
    obtain ⟨hfirst, hlater⟩ := h
    exact (ih hlater).trans (getElem?_ram_apply hfirst)

end Run

/-- The main result, for every memory that can be built and whatever has been done to it: no two
addresses write the same byte of RAM, a read after a write finds the byte written or what was there,
and a byte written in one configuration is read in any other at the address that it is banked to. -/
theorem windows_disjoint {ramKb : Nat} {systemRom : ByteArray} {mem : Memory}
    (h : Memory.build ramKb systemRom = .ok mem) (changes : List Change) (r c : UInt8) :
    let before := changes.foldl Change.apply mem
    let m := before.remap r c
    m.ram = before.ram ∧
      (∀ a, m.ShowsRam a ↔
        ¬(quadrant a = 0 ∧ r &&& 0x04 = 0) ∧ ¬(quadrant a = 3 ∧ r &&& 0x08 = 0)) ∧
      (∀ a, m.target a < m.ram.size) ∧
      (∀ a b, m.target a = m.target b → a = b) ∧
      (∀ a v i, (m.write a v).ram.data[i]? =
        if i = m.target a then some v else m.ram.data[i]?) ∧
      (∀ a b v, (m.write a v).read b = if a = b ∧ m.ShowsRam b then v else m.read b) ∧
      ∀ a v later r' c' b, Spares (m.target a) later (m.write a v) →
        let m' := (later.foldl Change.apply (m.write a v)).remap r' c'
        m'.target b = m.target a → m'.ShowsRam b → m'.read b = v := by
  intro before m
  have hwhole : m.Whole := ((whole_of_build h).run changes).apply (.remap r c)
  have hmapped : m.Mapped r c := mapped_remap r c before
  refine ⟨rfl, showsRam_iff hwhole hmapped, target_lt hwhole hmapped,
    fun a b => target_injective hwhole hmapped, getElem?_ram_write hwhole hmapped,
    read_write hwhole hmapped, fun a v later r' c' b hspares => ?_⟩
  intro m' htarget hram
  have hbyte : m'.ram.data[m'.target b]? = some v := by
    rw [htarget]
    refine (getElem?_ram_run hspares).trans ?_
    rw [getElem?_ram_write hwhole hmapped, if_pos rfl]
  rw [read_of_showsRam (mapped_remap r' c' _) hram, Array.getD_eq_getD_getElem?, hbyte]
  rfl

/-- A byte written at `0x4000`, where block 4 is, is read at address 0 when blocks 4 to 7 are banked
in, although another byte has been written at `0x4000` in between. -/
theorem windows_disjoint_paged : ∃ mem,
    Memory.build 128 ⟨Array.replicate 0x8000 0⟩ = .ok mem ∧
      let m := (mem.selectUpperRom 7).remap 0x0C 4
      (m.write 0x4000 0x42).read 0x4000 = 0x42 ∧
        ((((m.write 0x4000 0x42).remap 0 0).write 0x4000 1).remap 0x0C 2).read 0 = 0x42 := by
  obtain ⟨mem, h⟩ := exists_build (by decide : 64 ≤ 128) (by decide) (by decide)
    (Array.size_replicate : (Array.replicate 0x8000 (0 : UInt8)).size = 0x8000)
  have hsize : mem.ram.size = 0x20000 := by
    obtain ⟨-, -, -, -, rfl⟩ := build_ok h
    exact Array.size_replicate
  refine ⟨mem, h, ?_⟩
  intro m
  obtain ⟨-, hshows, -, -, -, hread, hlater⟩ := windows_disjoint h [.select 7] 0x0C 4
  have hwritten (m : Memory) (hm : m.ram.size = 0x20000) (a : UInt16) (v : UInt8) :
      (m.write a v).ram.size = 0x20000 :=
    (congrArg Prod.fst (fittings_poke (m.target a) v)).trans hm
  have hremap (m : Memory) (hm : m.ram.size = 0x20000) (r c : UInt8) (a : UInt16) :
      (m.remap r c).target a = Bank.position ((ramBanks 0x20000 c).get (quadrant a)) a := by
    rw [← hm]
    rfl
  have htarget : m.target 0x4000 = 0x10000 :=
    (hremap (mem.selectUpperRom 7) hsize 0x0C 4 0x4000).trans (by decide +kernel)
  have hbyte := hwritten m hsize 0x4000 0x42
  constructor
  · refine (hread 0x4000 0x4000 0x42).trans (if_pos ⟨rfl, ?_⟩)
    exact (hshows 0x4000).mpr (by decide)
  · refine hlater 0x4000 0x42 [.remap 0 0, .write 0x4000 1] 0x0C 2 0 ⟨id, fun hsame => ?_, trivial⟩
      ?_ ?_
    · -- the other write reaches block 1
      have hother := (hremap (m.write 0x4000 0x42) hbyte 0 0 0x4000).symm.trans
        (hsame.trans htarget)
      exact absurd hother (by decide +kernel)
    · refine (hremap _ ?_ 0x0C 2 0).trans ?_
      · exact hwritten ((m.write 0x4000 0x42).remap 0 0) hbyte 0x4000 1
      · exact Eq.trans (by decide +kernel) htarget.symm
    · have hwhole := (whole_of_build h).run
        [.select 7, .remap 0x0C 4, .write 0x4000 0x42, .remap 0 0, .write 0x4000 1, .remap 0x0C 2]
      exact (showsRam_iff hwhole (mapped_remap 0x0C 2 _) 0).mpr (by decide)

end Memory

end AmstradCpc
