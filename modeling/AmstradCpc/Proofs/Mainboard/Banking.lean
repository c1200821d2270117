import AmstradCpc.Proofs.Mainboard.Devices
import AmstradCpc.Proofs.Z80.Calls

/-!
# Banking

`BankedMemory` is the memory as its documentation tells it: one flat array of RAM, the ROMs, and the
three registers that say what an address shows. It has no table of banks; every access works out its
place anew. `Mainboard.run_refines` says that a board, whose banks are worked out only when one of
the registers is written, shows the same bytes after any calls.
-/

namespace AmstradCpc

open Z80 (BusCall)

/-! ## The documented memory -/

/-- Flat RAM, the ROMs, and the registers that bank them. -/
structure BankedMemory where
  ramSize : Nat
  ram : Nat → UInt8
  lowerRom : Nat → UInt8
  /-- The upper ROM of each slot, if there is one. -/
  upperRom : UInt8 → Option (Nat → UInt8)
  romConfig : UInt8 := 0
  ramConfig : UInt8 := 0
  romSelect : UInt8 := 0

namespace BankedMemory

variable (m : BankedMemory)

/-- The quadrant of an address. -/
def quadrant (a : UInt16) : Nat := a.toNat / 0x4000

/-- The place of an address in its quadrant. -/
def offset (a : UInt16) : Nat := a.toNat % 0x4000

/-- The block of RAM that configuration `n` puts into a quadrant. -/
def configured (n quadrant : Nat) : Nat :=
  match n with
  | 0 => quadrant
  | 1 => if quadrant = 3 then 7 else quadrant
  | 2 => quadrant + 4
  | 3 => if quadrant = 1 then 3 else if quadrant = 3 then 7 else quadrant
  | n => if quadrant = 1 then n else quadrant

/-- The block of RAM in a quadrant. A memory of 64 KB ignores the RAM configuration. -/
def block (quadrant : Nat) : Nat :=
  if m.ramSize = 0x10000 then quadrant else configured (m.ramConfig.toNat % 8) quadrant

/-- The page of 64 KB behind the first one that blocks 4 to 7 are in: bits 5 to 3 of the RAM
configuration, or page 0 if that one is not installed. -/
def page : Nat :=
  let page := m.ramConfig.toNat / 8 % 8
  if 0x10000 * (page + 2) ≤ m.ramSize then page else 0

/-- The byte of RAM that an address is banked to. -/
def place (a : UInt16) : Nat :=
  let block := m.block (quadrant a)
  if block < 4 then block * 0x4000 + offset a
  else 0x10000 * (m.page + 1) + (block - 4) * 0x4000 + offset a

/-- The upper ROM that is selected; slot 0 stands in for an empty one. -/
def shown : Option (Nat → UInt8) := (m.upperRom m.romSelect).or (m.upperRom 0)

/-- What an address reads as. -/
def read (a : UInt16) : UInt8 :=
  if quadrant a = 0 ∧ m.romConfig &&& 0x04 = 0 then m.lowerRom (offset a)
  else
    match m.shown with
    | some rom =>
      if quadrant a = 3 ∧ m.romConfig &&& 0x08 = 0 then rom (offset a) else m.ram (m.place a)
    | none => m.ram (m.place a)

/-- A write goes to RAM, also where a ROM shows. -/
def write (a : UInt16) (v : UInt8) : BankedMemory :=
  { m with ram := fun i => if i = m.place a then v else m.ram i }

/-- The Gate Array takes the two configurations from bytes with bit 7 up; bit 6 tells them apart. -/
def configure (v : UInt8) : BankedMemory :=
  if v.toNat / 64 = 2 then { m with romConfig := v &&& 0x0F }
  else if v.toNat / 64 = 3 then { m with ramConfig := v &&& 0x3F }
  else m

/-- A port with A15 low is the Gate Array, one with A13 low selects the upper ROM. -/
def output (port : UInt16) (v : UInt8) : BankedMemory :=
  let m := if port &&& 0x8000 = 0 then m.configure v else m
  if port &&& 0x2000 = 0 then { m with romSelect := v } else m

/-- A reset clears the registers and nothing else. -/
def reset : BankedMemory := { m with romConfig := 0, ramConfig := 0, romSelect := 0 }

/-- A memory with so many KB of cleared RAM, and a system ROM. -/
def powerOn (ramKb : Nat) (systemRom : ByteArray) : BankedMemory where
  ramSize := ramKb * 1024
  ram _ := 0
  lowerRom i := systemRom.data.getD i 0
  upperRom slot := if slot = 0 then some fun i => systemRom.data.getD (0x4000 + i) 0 else none

/-- Puts an upper ROM into a slot, with ones behind it. One that is too long is refused. -/
def install (slot : UInt8) (image : ByteArray) : BankedMemory :=
  if image.size ≤ 0x4000 then
    { m with
      upperRom := fun s => if s = slot then some fun i => image.data.getD i 0xFF else m.upperRom s }
  else m

def installAll (roms : List (UInt8 × ByteArray)) : BankedMemory :=
  roms.foldl (fun m rom => m.install rom.1 rom.2) m

/-! ## What leaves the RAM and the selection alone -/

@[simp] theorem romSelect_install (slot : UInt8) (image : ByteArray) :
    (m.install slot image).romSelect = m.romSelect := by
  unfold install
  split <;> rfl

@[simp] theorem ram_configure (v : UInt8) : (m.configure v).ram = m.ram := by
  simp only [configure]
  split
  · rfl
  · split <;> rfl

@[simp] theorem ramSize_configure (v : UInt8) : (m.configure v).ramSize = m.ramSize := by
  simp only [configure]
  split
  · rfl
  · split <;> rfl

@[simp] theorem ram_output (port : UInt16) (v : UInt8) : (m.output port v).ram = m.ram := by
  simp only [output]
  split <;> split <;> simp

@[simp] theorem ramSize_output (port : UInt16) (v : UInt8) :
    (m.output port v).ramSize = m.ramSize := by
  simp only [output]
  split <;> split <;> simp

end BankedMemory

/-! ## Calls on a board -/

/-- What a board can be asked to do: a call on its bus, or a reset. -/
inductive BoardCall
  | bus (call : BusCall)
  | reset
  deriving DecidableEq, Repr

/-- What a call does to the documented memory. -/
def BankedMemory.step (m : BankedMemory) : BoardCall → BankedMemory
  | .bus (.write a v) => m.write a v
  | .bus (.output port v) => m.output port v
  | .bus (.read _) | .bus (.input _) | .bus .acknowledge | .bus .poll => m
  | .reset => m.reset

def BoardCall.apply (b : Mainboard) : BoardCall → Mainboard
  | .bus c => c.apply b
  | .reset => b.reset

/-! ## The tables of banks -/

namespace Memory

/-- The tables of banks are the ones of these configurations. -/
structure Mapped (r c : UInt8) (m : Memory) : Prop where
  reads : m.readBanks = (m.remap r c).readBanks
  writes : m.writeBanks = ramBanks m.ram.size c

theorem mapped_remap (r c : UInt8) (m : Memory) : (m.remap r c).Mapped r c := ⟨rfl, rfl⟩

-- The tables do not depend on what the RAM holds.
theorem Mapped.withRam {r c : UInt8} {m : Memory} (h : m.Mapped r c) (ram : ByteArray)
    (hsize : ram.size = m.ram.size) : Mapped r c { m with ram } where
  reads := by
    rw [h.reads]
    simp only [remap, shownSlot, hsize]
    rfl
  writes := by
    rw [hsize]
    exact h.writes

theorem ramConfigs_eq : ∀ n (h : n < 8), ∀ q : Fin 4,
    (ramConfigs[n])[q] = BankedMemory.configured n q := by
  decide

-- The table of configurations is the documented one.
theorem blocks_eq {size : Nat} (c : UInt8) (q : Fin 4) (h : 0x10000 ≤ size) :
    (blocks size c)[q] =
      if size = 0x10000 then q.val else BankedMemory.configured (c.toNat % 8) q := by
  unfold blocks
  by_cases hsize : size = 0x10000
  · rw [if_pos (by omega), if_pos hsize]
    exact ramConfigs_eq 0 (by decide) q
  · rw [if_neg (by omega), if_neg hsize]
    exact ramConfigs_eq (c.toNat % 8) (by omega) q

theorem page_eq (size : Nat) (c : UInt8) :
    page size c =
      if 0x10000 * (c.toNat / 8 % 8 + 2) ≤ size then c.toNat / 8 % 8 else 0 := by
  have hbits : ((c >>> 3) &&& 7).toNat = c.toNat / 8 % 8 := by
    rw [UInt8.toNat_and, UInt8.toNat_shiftRight]
    show (c.toNat >>> (3 % 8)) &&& (2 ^ 3 - 1) = _
    rw [Nat.and_two_pow_sub_one_eq_mod, Nat.shiftRight_eq_div_pow]
  simp only [page, hbits]
  split <;> split <;> omega

-- The bank that shows in a quadrant.
theorem readBank_remap (r c : UInt8) (m : Memory) (q : Fin 4) :
    (m.remap r c).readBanks.get q =
      if q = 3 ∧ r &&& 0x08 = 0 ∧ m.upperRoms[(m.shownSlot m.romSelect).toFin].isSome then
        ⟨.upperRom (m.shownSlot m.romSelect), 0⟩
      else if q = 0 ∧ r &&& 0x04 = 0 then ⟨.lowerRom, 0⟩
      else (ramBanks m.ram.size c).get q := by
  -- a table with other banks in the first and the last quadrant
  have hoverlay (banks : Vector Bank 4) (low high : Prop) [Decidable low] [Decidable high]
      (x y : Bank) :
      (if high then (if low then banks.set 0 x else banks).set 3 y
        else if low then banks.set 0 x else banks)[q] =
        if q = 3 ∧ high then y else if q = 0 ∧ low then x else banks[q] := by
    have hfirst : q = 0 ↔ 0 = q.val := Fin.ext_iff.trans eq_comm
    have hlast : q = 3 ↔ 3 = q.val := Fin.ext_iff.trans eq_comm
    by_cases hh : high <;> by_cases hl : low <;>
      simp only [hh, hl, hfirst, hlast, and_true, and_false, if_true, if_false, Fin.getElem_fin,
        Vector.getElem_set]
  refine Eq.trans ?_ (hoverlay (ramBanks m.ram.size c) _ _ _ _)
  show (m.remap r c).readBanks[q] = _
  simp only [remap, Bool.and_eq_true, beq_iff_eq]

/-- What an address reads as in a bank. -/
def fetch (m : Memory) (bank : Bank) (a : UInt16) : UInt8 :=
  (m.buffer bank.buffer).data.getD (Bank.position bank a) 0xFF

theorem read_eq_fetch (m : Memory) (a : UInt16) :
    m.read a = m.fetch (m.readBanks.get (quadrant a)) a := rfl

theorem toNat_offset (a : UInt16) : (a &&& 0x3FFF).toNat = BankedMemory.offset a := by
  rw [UInt16.toNat_and]
  exact Nat.and_two_pow_sub_one_eq_mod a.toNat 14

end Memory

namespace BankedMemory

variable {m : BankedMemory}

theorem configured_lt (n q : Nat) (hn : n < 8) (hq : q < 4) : configured n q < 8 := by
  have h : ∀ n < 8, ∀ q < 4, configured n q < 8 := by decide
  exact h n hn q hq

-- Every address is banked to a byte that is installed.
theorem place_lt (a : UInt16) (henough : 0x10000 ≤ m.ramSize) (hpages : m.ramSize % 0x10000 = 0) :
    m.place a < m.ramSize := by
  have ha : a.toNat < 0x10000 := a.toNat_lt
  have hq : quadrant a < 4 := by
    unfold quadrant
    omega
  have ho : offset a < 0x4000 := Nat.mod_lt _ (by decide)
  unfold place block
  by_cases hsize : m.ramSize = 0x10000
  · -- 64 KB have the first four blocks, and no other is asked for
    simp only [if_pos hsize, if_pos hq]
    omega
  · have hb := configured_lt (m.ramConfig.toNat % 8) (quadrant a) (by omega) hq
    simp only [if_neg hsize]
    split
    · omega
    · unfold page
      dsimp only
      split <;> omega

end BankedMemory

/-! ## The board and the documented memory -/

/-- The bytes are the first ones of `f`. -/
def Holds (bytes : ByteArray) (f : Nat → UInt8) : Prop :=
  ∀ i (h : i < bytes.size), bytes[i] = f i

/-- A ROM of 16 KB with the bytes of `f`. -/
def IsRom (rom : ByteArray) (f : Nat → UInt8) : Prop := rom.size = 0x4000 ∧ Holds rom f

/-- The bytes and registers of a memory and its ROM and RAM configuration are the documented ones,
and its tables of banks are up to date. -/
structure Refines (r c : UInt8) (mem : Memory) (m : BankedMemory) : Prop where
  ramSize : mem.ram.size = m.ramSize
  enough : 0x10000 ≤ m.ramSize
  pages : m.ramSize % 0x10000 = 0
  ram : Holds mem.ram m.ram
  lowerRom : IsRom mem.lowerRom m.lowerRom
  upperRom : ∀ slot : UInt8, Option.Rel IsRom mem.upperRoms[slot.toFin] (m.upperRom slot)
  basic : (m.upperRom 0).isSome
  romConfig : r = m.romConfig
  ramConfig : c = m.ramConfig
  romSelect : mem.romSelect = m.romSelect
  mapped : mem.Mapped r c

namespace Refines

variable {r c : UInt8} {mem : Memory} {m : BankedMemory}

theorem isSome_of_rel {α β : Type} {R : α → β → Prop} {x : Option α} {y : Option β}
    (h : Option.Rel R x y) : x.isSome = y.isSome := by
  cases h <;> rfl

-- Where a RAM bank puts an address.
theorem position_eq (h : Refines r c mem m) (a : UInt16) :
    Memory.Bank.position ((Memory.ramBanks mem.ram.size c).get (Memory.quadrant a)) a =
      m.place a := by
  -- both memories bank the same block of the same page
  have hblock : (Memory.blocks mem.ram.size c)[Memory.quadrant a] =
      m.block (BankedMemory.quadrant a) := by
    rw [Memory.blocks_eq c _ (h.ramSize ▸ h.enough), h.ramSize, h.ramConfig]
    rfl
  have hpage : Memory.page mem.ram.size c = m.page := by
    rw [Memory.page_eq, h.ramSize, h.ramConfig]
    rfl
  have hbank : (Memory.ramBanks mem.ram.size c).get (Memory.quadrant a) =
      ⟨.ram, Memory.blockOffset m.page (m.block (BankedMemory.quadrant a))⟩ := by
    rw [← hblock, ← hpage]
    exact Vector.getElem_map ..
  -- what is left is where that block begins
  rw [hbank, Memory.Bank.position, Memory.toNat_offset]
  unfold Memory.blockOffset BankedMemory.place Memory.bankSize
  dsimp only
  split <;> rfl

theorem fetch_ram (h : Refines r c mem m) (a : UInt16) :
    mem.fetch ((Memory.ramBanks mem.ram.size c).get (Memory.quadrant a)) a = m.ram (m.place a) := by
  have hlt : m.place a < mem.ram.size := by
    rw [h.ramSize]
    exact BankedMemory.place_lt a h.enough h.pages
  have hbuffer : ((Memory.ramBanks mem.ram.size c).get (Memory.quadrant a)).buffer = .ram := by
    show (Memory.ramBanks mem.ram.size c)[Memory.quadrant a].buffer = .ram
    unfold Memory.ramBanks
    simp
  unfold Memory.fetch
  rw [h.position_eq, hbuffer]
  refine (Array.getElem_eq_getD 0xFF).symm.trans (h.ram _ hlt)

-- The slot that shows is never empty, and its ROM is the documented one.
theorem exists_shown (h : Refines r c mem m) :
    ∃ rom f, mem.upperRoms[(mem.shownSlot mem.romSelect).toFin] = some rom ∧ m.shown = some f ∧
      IsRom rom f := by
  have hrel : Option.Rel IsRom mem.upperRoms[(mem.shownSlot mem.romSelect).toFin] m.shown := by
    unfold Memory.shownSlot BankedMemory.shown
    rw [isSome_of_rel (h.upperRom _), ← h.romSelect]
    cases hs : m.upperRom mem.romSelect with
    | none => exact h.upperRom 0
    | some f =>
      have hslot := h.upperRom mem.romSelect
      rw [hs] at hslot
      exact hslot
  -- slot 0 holds BASIC, so what stands in for an empty slot is never empty itself
  have hsome : m.shown.isSome := by
    unfold BankedMemory.shown
    rw [Option.isSome_or, h.basic, Bool.or_true]
  obtain ⟨f, hf⟩ := Option.isSome_iff_exists.mp hsome
  rw [hf] at hrel
  generalize mem.upperRoms[(mem.shownSlot mem.romSelect).toFin] = rom at hrel ⊢
  cases hrel with
  | some hi => exact ⟨_, f, rfl, hf, hi⟩

theorem fetch_rom {buffer : Buffer} {f : Nat → UInt8} (a : UInt16)
    (hrom : IsRom (mem.buffer buffer) f) :
    mem.fetch ⟨buffer, 0⟩ a = f (BankedMemory.offset a) := by
  have hposition : Memory.Bank.position ⟨buffer, 0⟩ a = BankedMemory.offset a := by
    rw [Memory.Bank.position, Memory.toNat_offset, Nat.zero_add]
  have hlt : BankedMemory.offset a < (mem.buffer buffer).size := by
    rw [hrom.1]
    exact Nat.mod_lt _ (by decide)
  unfold Memory.fetch
  rw [hposition]
  exact (Array.getElem_eq_getD 0xFF).symm.trans (hrom.2 _ hlt)

/-- A read through the table of banks finds what the documentation says. -/
theorem read_eq (h : Refines r c mem m) (a : UInt16) : mem.read a = m.read a := by
  have hq (q : Fin 4) : BankedMemory.quadrant a = q.val ↔ Memory.quadrant a = q := by
    rw [Fin.ext_iff]
    rfl
  obtain ⟨rom, f, hrom, hf, hi⟩ := h.exists_shown
  have hlow : mem.fetch ⟨.lowerRom, 0⟩ a = m.lowerRom (BankedMemory.offset a) := by
    refine fetch_rom a ?_
    exact h.lowerRom
  have hhigh : mem.fetch ⟨.upperRom (mem.shownSlot mem.romSelect), 0⟩ a =
      f (BankedMemory.offset a) := by
    refine fetch_rom a ?_
    show IsRom (mem.upperRoms[(mem.shownSlot mem.romSelect).toFin].getD .empty) f
    rw [hrom]
    exact hi
  rw [Memory.read_eq_fetch, h.mapped.reads, Memory.readBank_remap, hrom]
  unfold BankedMemory.read
  simp only [hf, show BankedMemory.quadrant a = 0 ↔ _ from hq 0,
    show BankedMemory.quadrant a = 3 ↔ _ from hq 3, ← h.romConfig, Option.isSome_some, and_true]
  -- no address is in both quadrants that can show a ROM, so their order does not matter
  by_cases h3 : Memory.quadrant a = 3 ∧ r &&& 0x08 = 0
  · have h0 : ¬ (Memory.quadrant a = 0 ∧ r &&& 0x04 = 0) := by
      rw [h3.1]
      exact fun hn => absurd hn.1 (by decide)
    rw [if_pos h3, if_neg h0, if_pos h3, hhigh]
  · rw [if_neg h3, if_neg h3]
    split
    · exact hlow
    · exact h.fetch_ram a

end Refines

/-! ## Calls -/

namespace Refines

variable {r c : UInt8} {mem : Memory} {m : BankedMemory}

-- A write changes the one byte of RAM that the address is banked to.
theorem write (h : Refines r c mem m) (a : UInt16) (v : UInt8) :
    Refines r c (mem.write a v) (m.write a v) := by
  have hlt : m.place a < mem.ram.size := by
    rw [h.ramSize]
    exact BankedMemory.place_lt a h.enough h.pages
  -- the table for writes has RAM in every quadrant, also where a ROM shows
  have hposition : Memory.Bank.position mem.writeBanks[Memory.quadrant a] a = m.place a := by
    rw [h.mapped.writes]
    exact h.position_eq a
  have hwrite : mem.write a v = { mem with ram := mem.ram.set (m.place a) v hlt } := by
    unfold Memory.write
    simp only [hposition]
    rw [dif_pos hlt]
  have hsize : (mem.ram.set (m.place a) v hlt).size = mem.ram.size := Array.size_set _
  rw [hwrite]
  refine { h with ramSize := hsize.trans h.ramSize, ram := ?_, mapped := h.mapped.withRam _ hsize }
  -- the bytes of RAM, before and after the write
  intro i hi
  refine (Array.getElem_set hlt hi).trans ?_
  show _ = if i = m.place a then v else m.ram i
  by_cases hia : m.place a = i
  · rw [if_pos hia, if_pos hia.symm]
  · rw [if_neg hia, if_neg (Ne.symm hia)]
    exact h.ram i (hsize ▸ hi)

-- Other registers need other tables of banks.
theorem remap (h : Refines r c mem m) (r' c' slot : UInt8) {m' : BankedMemory}
    (hm : { m with romConfig := r', ramConfig := c', romSelect := slot } = m') :
    Refines r' c' ((mem.selectUpperRom slot).remap r' c') m' := by
  subst hm
  exact { h with
    romConfig := rfl, ramConfig := rfl, romSelect := rfl
    mapped := Memory.mapped_remap _ _ _ }

end Refines

namespace Mainboard

/-- The memory of a board is the documented one. -/
def Banked (b : Mainboard) (m : BankedMemory) : Prop :=
  Refines b.gateArray.romConfig b.gateArray.ramConfig b.memory m

variable {b b' : Mainboard} {m : BankedMemory}

theorem Banked.congr (h : b.Banked m) (hmem : b'.memory = b.memory)
    (hga : b'.gateArray = b.gateArray) : b'.Banked m := by
  unfold Banked at h ⊢
  rw [hmem, hga]
  exact h

-- Whatever the Gate Array holds, working out the banks gives the documented memory.
theorem Banked.configure (h : b.Banked m) (ga : GateArray) :
    ({ b with gateArray := ga } : Mainboard).remap.Banked
      { m with romConfig := ga.romConfig, ramConfig := ga.ramConfig } := by
  exact Refines.remap h ga.romConfig ga.ramConfig b.memory.romSelect (by rw [h.romSelect])

theorem Banked.writeGateArray (h : b.Banked m) (v : UInt8) :
    (b.writeGateArray v).Banked (m.configure v) := by
  have hv : v.toNat / 64 = (v >>> 6).toNat := by
    rw [UInt8.toNat_shiftRight]
    show _ = v.toNat >>> (6 % 8)
    rw [Nat.shiftRight_eq_div_pow]
  have hrom : b.gateArray.romConfig = m.romConfig := h.romConfig
  have hram : b.gateArray.ramConfig = m.ramConfig := h.ramConfig
  unfold BankedMemory.configure Mainboard.writeGateArray
  rw [hv]
  rcases GateArray.write_cases v b.gateArray with
    ⟨hk, hw⟩ | ⟨hk, hw⟩ | ⟨hk, -, hw⟩ | ⟨hk, -, hw⟩ | ⟨hk, hw⟩ <;> rw [hk, hw]
  -- a pen or an ink: the banks are not worked out, and need not be
  · exact h
  · exact h
  -- a configuration: the other one stays what the documented memory has
  · have hb := h.configure { b.gateArray with romConfig := v &&& 0x0F }
    rw [hram] at hb
    exact hb
  · have hb := h.configure
      { b.gateArray with romConfig := v &&& 0x0F, lineCounter := 0, intRequest := false }
    rw [hram] at hb
    exact hb
  · have hb := h.configure { b.gateArray with ramConfig := v &&& 0x3F }
    rw [hrom] at hb
    exact hb

theorem Banked.writeRomSelect (h : b.Banked m) (v : UInt8) :
    (b.writeRomSelect v).Banked { m with romSelect := v } := by
  refine Refines.remap h b.gateArray.romConfig b.gateArray.ramConfig v ?_
  rw [h.romConfig, h.ramConfig]

-- A device that is visited only under a condition.
theorem Banked.ite {c : Prop} [Decidable c] {m' : BankedMemory} (h : b.Banked m)
    (h' : b'.Banked m') : (if c then b' else b).Banked (if c then m' else m) := by
  split
  · exact h'
  · exact h

theorem Banked.output (h : b.Banked m) (port : UInt16) (v : UInt8) :
    (b.output port v).Banked (m.output port v) := by
  have hlow (line : UInt16) : low port line = true ↔ port &&& line = 0 := beq_iff_eq
  simp only [Mainboard.output, BankedMemory.output, ← hlow]
  have hga := Banked.ite (c := low port 0x8000) h (h.writeGateArray v)
  have hcrtc := Banked.ite (c := low port 0x4000) hga
    (hga.congr (memory_writeCrtc _ (functionOf port) v) (gateArray_writeCrtc _ (functionOf port) v))
  rw [ite_self] at hcrtc
  have hselect := Banked.ite (c := low port 0x2000) hcrtc (hcrtc.writeRomSelect v)
  -- the other devices reach neither the memory nor the Gate Array
  refine hselect.congr ?_ ?_ <;> simp

theorem Banked.reset (h : b.Banked m) : b.reset.Banked m.reset :=
  Refines.remap h 0 0 0 rfl

theorem Banked.scanline (h : b.Banked m) : b.scanline.Banked m := by
  -- counting a line changes neither configuration
  have hconfig : b.gateArray.scanline.2.romConfig = b.gateArray.romConfig ∧
      b.gateArray.scanline.2.ramConfig = b.gateArray.ramConfig := by
    unfold GateArray.scanline
    dsimp only
    split <;> exact ⟨rfl, rfl⟩
  have hb : ({ b with gateArray := b.gateArray.scanline.2 } : Mainboard).Banked m := by
    unfold Banked
    rw [hconfig.1, hconfig.2]
    exact h
  unfold Mainboard.scanline
  dsimp only
  split
  · exact hb
  · exact hb

/-- One call keeps the board and the documented memory in step. -/
theorem Banked.step (h : b.Banked m) (c : BoardCall) : (c.apply b).Banked (m.step c) := by
  cases c with
  | reset => exact h.reset
  | bus c =>
    cases c with
    | read a => exact h
    | write a v => exact Refines.write h a v
    | input port => exact h.congr (memory_input b port) (gateArray_input b port)
    | output port v => exact h.output port v
    | acknowledge => exact h
    | poll => exact h.scanline

/-- Any calls keep them in step. -/
theorem Banked.run (h : b.Banked m) (calls : List BoardCall) :
    (calls.foldl BoardCall.apply b).Banked (calls.foldl BankedMemory.step m) := by
  induction calls generalizing b m with
  | nil => exact h
  | cons c calls ih => exact ih (h.step c)

end Mainboard

/-! ## Power-on -/

/-- The memory after an upper ROM has been put into a slot; one that is refused changes nothing. -/
def Memory.install (mem : Memory) (rom : UInt8 × ByteArray) : Memory :=
  match mem.loadUpperRom rom.1 rom.2 with
  | .ok mem => mem
  | .error _ => mem

-- While slot 0 is selected, the tables do not depend on the other slots.
theorem Memory.Mapped.withRoms {r c : UInt8} {mem : Memory} (h : mem.Mapped r c)
    (hs : mem.romSelect = 0) (roms : Vector (Option ByteArray) 256)
    (hbasic : roms[(0 : UInt8).toFin].isSome = mem.upperRoms[(0 : UInt8).toFin].isSome) :
    Memory.Mapped r c { mem with upperRoms := roms } where
  reads := by
    rw [h.reads]
    simp only [remap, shownSlot, hs, ite_self, hbasic]
  writes := h.writes

theorem Memory.slots_pos : 0 < 256 := by decide

-- What building a memory takes, and the memory it gives.
theorem Memory.build_ok {ramKb : Nat} {systemRom : ByteArray} {mem : Memory}
    (h : Memory.build ramKb systemRom = .ok mem) :
    64 ≤ ramKb ∧ ramKb ≤ 576 ∧ ramKb % 64 = 0 ∧ systemRom.size = 0x8000 ∧
      mem = remap 0 0 {
        ram := ⟨Array.replicate (ramKb * 1024) 0⟩
        lowerRom := systemRom.extract 0 0x4000
        upperRoms := (Vector.replicate 256 none).set 0 (some (systemRom.extract 0x4000 0x8000))
          slots_pos } := by
  unfold Memory.build minRamKb maxRamKb bankSize at h
  split at h
  case isTrue => cases h
  case isFalse hkb =>
    split at h
    case isTrue => cases h
    case isFalse =>
      split at h
      case isTrue => cases h
      case isFalse hrom => exact ⟨by omega, by omega, by omega, by omega, (Except.ok.inj h).symm⟩

-- A memory can be built for every size of RAM that the machine takes.
theorem Memory.exists_build {ramKb : Nat} {systemRom : ByteArray} (hmin : 64 ≤ ramKb)
    (hmax : ramKb ≤ 576) (hpages : ramKb % 64 = 0) (hrom : systemRom.size = 0x8000) :
    ∃ mem, Memory.build ramKb systemRom = .ok mem := by
  have hempty : ¬ systemRom.isEmpty = true := by
    intro he
    have : systemRom.size = 0 := beq_iff_eq.mp he
    omega
  unfold Memory.build minRamKb maxRamKb bankSize
  rw [if_neg (by omega), if_neg hempty, if_neg (by omega)]
  exact ⟨_, rfl⟩

namespace Refines

variable {r c : UInt8} {mem : Memory} {m : BankedMemory}

-- An image with the same byte behind it as often as wanted.
theorem holds_padded (image : ByteArray) (n : Nat) (fill : UInt8) :
    Holds (image ++ ⟨Array.replicate n fill⟩) fun i => image.data.getD i fill := by
  intro i hi
  -- the bytes of the image, and then the ones behind it
  by_cases hlt : i < image.size
  · rw [ByteArray.getElem_append_left hlt]
    exact (dif_pos hlt).symm
  · rw [ByteArray.getElem_append_right (by omega)]
    refine (Array.getElem_replicate ..).trans ?_
    show fill = if h : i < image.size then image.data[i] else fill
    rw [dif_neg hlt]

-- An image with ones behind it, as a ROM of 16 KB.
theorem isRom_padded {image : ByteArray} (h : image.size ≤ 0x4000) :
    IsRom (image ++ ⟨Array.replicate (0x4000 - image.size) 0xFF⟩) fun i => image.data.getD i 0xFF := by
  have hsize : (image ++ ⟨Array.replicate (0x4000 - image.size) 0xFF⟩ : ByteArray).size = 0x4000 := by
    rw [ByteArray.size_append]
    show image.size + (Array.replicate _ _).size = 0x4000
    rw [Array.size_replicate]
    omega
  exact ⟨hsize, holds_padded image _ 0xFF⟩

-- A ROM put into a slot, and the other slots as they were.
theorem getElem_set_slot (roms : Vector (Option ByteArray) 256) (rom : Option ByteArray)
    (slot s : UInt8) :
    (roms.set slot.toFin rom)[s.toFin] = if s = slot then rom else roms[s.toFin] := by
  by_cases hslot : s = slot
  · rw [if_pos hslot, hslot, Fin.getElem_fin, Vector.getElem_set_self]
  · have hne : slot.toFin.val ≠ s.toFin.val := fun hv => hslot (UInt8.toNat_inj.mp hv.symm)
    rw [if_neg hslot, Fin.getElem_fin, Vector.getElem_set_ne _ _ hne]
    rfl

theorem rel_set {roms : Vector (Option ByteArray) 256} {f : UInt8 → Option (Nat → UInt8)}
    {rom : ByteArray} {g : Nat → UInt8} (h : ∀ s : UInt8, Option.Rel IsRom roms[s.toFin] (f s))
    (hrom : IsRom rom g) (slot s : UInt8) :
    Option.Rel IsRom (roms.set slot.toFin (some rom))[s.toFin]
      (if s = slot then some g else f s) := by
  rw [getElem_set_slot]
  split
  · exact .some hrom
  · exact h s

theorem install (h : Refines r c mem m) (hs : m.romSelect = 0) (slot : UInt8)
    (image : ByteArray) : Refines r c (mem.install (slot, image)) (m.install slot image) := by
  unfold Memory.install Memory.loadUpperRom BankedMemory.install Memory.bankSize
  dsimp only
  by_cases hsize : image.size ≤ 0x4000
  · rw [if_neg (by omega), if_pos hsize]
    dsimp only
    have hroms := rel_set h.upperRom (isRom_padded hsize) slot
    -- slot 0 may be given another ROM, but it is not emptied
    have hbasic : (if 0 = slot then some fun i => image.data.getD i 0xFF else m.upperRom 0).isSome := by
      split
      · rfl
      · exact h.basic
    refine { h with upperRom := hroms, basic := hbasic, mapped := h.mapped.withRoms ?_ _ ?_ }
    · rw [h.romSelect, hs]
    · rw [isSome_of_rel (hroms 0), isSome_of_rel (h.upperRom 0), h.basic]
      exact hbasic
  · -- the image is refused
    rw [if_pos (by omega), if_neg hsize]
    exact h

-- A part of the system ROM.
theorem isRom_extract {systemRom : ByteArray} (start : Nat) {f : Nat → UInt8}
    (h : start + 0x4000 ≤ systemRom.size) (hf : ∀ i, f i = systemRom.data.getD (start + i) 0) :
    IsRom (systemRom.extract start (start + 0x4000)) f := by
  have hsize : (systemRom.extract start (start + 0x4000)).size = 0x4000 := by
    rw [ByteArray.size_extract]
    omega
  refine ⟨hsize, fun i hi => ?_⟩
  have hlt : start + i < systemRom.size := by omega
  rw [ByteArray.getElem_extract, hf]
  exact (dif_pos hlt).symm

theorem powerOn {ramKb : Nat} {systemRom : ByteArray}
    (h : Memory.build ramKb systemRom = .ok mem) : Refines 0 0 mem (.powerOn ramKb systemRom) := by
  obtain ⟨hmin, -, hpages, hrom, rfl⟩ := Memory.build_ok h
  have hlow : IsRom (systemRom.extract 0 0x4000) fun i => systemRom.data.getD i 0 :=
    isRom_extract 0 (by omega) fun i => by rw [Nat.zero_add]
  have hhigh : IsRom (systemRom.extract 0x4000 0x8000) fun i =>
      systemRom.data.getD (0x4000 + i) 0 :=
    isRom_extract 0x4000 (by omega) fun _ => rfl
  exact {
    ramSize := Array.size_replicate
    enough := by
      show 0x10000 ≤ ramKb * 1024
      omega
    pages := by
      show ramKb * 1024 % 0x10000 = 0
      omega
    ram := fun i hi => Array.getElem_replicate ..
    lowerRom := hlow
    upperRom := rel_set (f := fun _ => none) (fun s => by simp [Fin.getElem_fin]) hhigh 0
    basic := rfl
    romConfig := rfl
    ramConfig := rfl
    romSelect := rfl
    mapped := Memory.mapped_remap _ _ _ }

theorem installAll (h : Refines r c mem m) (hs : m.romSelect = 0)
    (roms : List (UInt8 × ByteArray)) :
    Refines r c (roms.foldl Memory.install mem) (m.installAll roms) := by
  induction roms generalizing mem m with
  | nil => exact h
  | cons rom roms ih =>
    refine ih (h.install hs rom.1 rom.2) ?_
    rw [BankedMemory.romSelect_install]
    exact hs

theorem getElem?_ram (h : Refines r c mem m) (i : Nat) :
    mem.ram.data[i]? = if i < m.ramSize then some (m.ram i) else none := by
  split
  case isTrue hi =>
    have hlt : i < mem.ram.size := h.ramSize ▸ hi
    rw [Array.getElem?_eq_getElem hlt]
    exact congrArg some (h.ram i hlt)
  case isFalse hi =>
    refine Array.getElem?_eq_none ?_
    show mem.ram.size ≤ i
    rw [h.ramSize]
    omega

end Refines

namespace Mainboard

/-- A write reaches the one byte of RAM that the documented memory banks its address to, and no
other call reaches the RAM. -/
theorem Banked.getElem?_ram_step {b : Mainboard} {m : BankedMemory} (h : b.Banked m)
    (c : BoardCall) (i : Nat) :
    (c.apply b).memory.ram.data[i]? =
      match c with
      | .bus (.write a v) => if i = m.place a then some v else b.memory.ram.data[i]?
      | _ => b.memory.ram.data[i]? := by
  -- both sides in terms of the documented RAM, which only a write changes
  rw [Refines.getElem?_ram (h.step c), Refines.getElem?_ram h]
  rcases c with (a | ⟨a, v⟩ | p | ⟨p, v⟩ | _ | _) | _
  case bus.write =>
    have hlt : m.place a < m.ramSize := BankedMemory.place_lt a h.enough h.pages
    show (if i < m.ramSize then some (if i = m.place a then v else m.ram i) else none) = _
    by_cases hi : i = m.place a
    · simp [hi, hlt]
    · simp [hi]
  case bus.output =>
    show (if i < (m.output p v).ramSize then some ((m.output p v).ram i) else none) = _
    rw [BankedMemory.ramSize_output, BankedMemory.ram_output]
  all_goals rfl

/-- The main result: after any calls, an address reads as the documented memory has it, whose
registers are those of the board, a write changes the byte of RAM that the address is banked to and
no other, and nothing else changes RAM. -/
theorem run_refines {ramKb : Nat} {systemRom : ByteArray} {mem : Memory}
    (h : Memory.build ramKb systemRom = .ok mem) (roms : List (UInt8 × ByteArray))
    (calls : List BoardCall) :
    let b : Mainboard := calls.foldl BoardCall.apply { memory := roms.foldl Memory.install mem }
    let m := calls.foldl BankedMemory.step ((BankedMemory.powerOn ramKb systemRom).installAll roms)
    (b.gateArray.romConfig = m.romConfig ∧ b.gateArray.ramConfig = m.ramConfig ∧
        b.memory.romSelect = m.romSelect) ∧
      (∀ a, (Z80.Bus.read a b).1 = m.read a) ∧
      (∀ i, b.memory.ram.data[i]? = if i < m.ramSize then some (m.ram i) else none) ∧
      ∀ (c : BoardCall) (i : Nat), (c.apply b).memory.ram.data[i]? =
        match c with
        | .bus (.write a v) => if i = m.place a then some v else b.memory.ram.data[i]?
        | _ => b.memory.ram.data[i]? := by
  have hb : ({ memory := roms.foldl Memory.install mem } : Mainboard).Banked
      ((BankedMemory.powerOn ramKb systemRom).installAll roms) :=
    (Refines.powerOn h).installAll rfl roms
  have hrun := hb.run calls
  exact ⟨⟨hrun.romConfig, hrun.ramConfig, hrun.romSelect⟩, Refines.read_eq hrun,
    Refines.getElem?_ram hrun, hrun.getElem?_ram_step⟩

/-- A byte written to a page behind the first 64 KB shows while that page is banked in. -/
theorem run_refines_paged : ∃ mem,
    Memory.build 128 ⟨Array.replicate 0x8000 0⟩ = .ok mem ∧
      let calls := [.bus (.output 0x7F00 0xC4), .bus (.write 0x4000 0x42)]
      let b : Mainboard := calls.foldl BoardCall.apply { memory := mem }
      (Z80.Bus.read 0x4000 b).1 = 0x42 ∧
        (Z80.Bus.read 0x4000 (BoardCall.apply b (.bus (.output 0x7F00 0xC0)))).1 = 0 := by
  obtain ⟨mem, h⟩ := Memory.exists_build (by decide : 64 ≤ 128) (by decide) (by decide)
    (Array.size_replicate : (Array.replicate 0x8000 (0 : UInt8)).size = 0x8000)
  refine ⟨mem, h, ?_, ?_⟩
  · exact ((run_refines h [] [.bus (.output 0x7F00 0xC4), .bus (.write 0x4000 0x42)]).2.1 _).trans
      (by decide)
  · exact ((run_refines h [] [.bus (.output 0x7F00 0xC4), .bus (.write 0x4000 0x42),
      .bus (.output 0x7F00 0xC0)]).2.1 _).trans (by decide)

end Mainboard

end AmstradCpc
