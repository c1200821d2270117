import AmstradCpc.Screen.Picture

/-!
# Screen memory

Which bytes of memory the display is made of. A character has a word in each of the raster lines of
its row, and the address of the word leaves out bits 11 and 10 of the character's address. Only
characters that are a multiple of 1024 apart can share a word therefore, and a screen of no more
than 1024 characters and 8 raster lines a row shows no byte twice, wherever it starts
(`Crtc.byteAddress_inj`). A ninth raster line shows the first one again
(`Crtc.videoAddress_add_eight`).
-/

namespace AmstradCpc

namespace Crtc

/-! ## Fields of an address -/

theorem toNat_characterAddress (crtc : Crtc) (row col : UInt16) :
    (crtc.characterAddress row col).toNat =
      (crtc.startAddress.toNat + row.toNat * crtc.horizontalDisplayed + col.toNat) % 0x4000 := by
  unfold characterAddress horizontalDisplayed
  rw [UInt16.toNat_and, UInt16.toNat_add, UInt16.toNat_add, UInt16.toNat_mul,
    UInt8.toNat_toUInt16]
  refine (Nat.and_two_pow_sub_one_eq_mod _ 14).trans ?_
  omega

-- Each field of the address lies below the lowest bit of the one before it.
theorem toNat_videoAddress (ma : UInt16) (ra : UInt8) :
    (videoAddress ma ra).toNat =
      0x4000 * (ma.toNat / 0x1000 % 4) + 0x800 * (ra.toNat % 8) + 2 * (ma.toNat % 0x400) := by
  have hma := ma.toNat_lt
  have hpage : ((ma &&& 0x3000) <<< 2).toNat = (ma.toNat / 0x1000 % 4) <<< 14 := by
    have hmask : ma.toNat &&& 0x3000 = 0x1000 * (ma.toNat / 0x1000 % 4) := by
      have hhigh : (ma.toNat &&& 0x3000) / 2 ^ 12 = ma.toNat / 0x1000 % 4 := by
        rw [Nat.and_div_two_pow]
        exact Nat.and_two_pow_sub_one_eq_mod _ 2
      have hlow : (ma.toNat &&& 0x3000) % 2 ^ 12 = 0 := by
        rw [Nat.and_mod_two_pow]
        exact Nat.and_zero _
      omega
    rw [UInt16.toNat_shiftLeft, UInt16.toNat_and]
    show (ma.toNat &&& 0x3000) <<< 2 % 2 ^ 16 = _
    rw [hmask, Nat.shiftLeft_eq, Nat.shiftLeft_eq]
    omega
  have hraster : ((ra.toUInt16 &&& 7) <<< 11).toNat = (ra.toNat % 8) <<< 11 := by
    rw [UInt16.toNat_shiftLeft, UInt16.toNat_and, UInt8.toNat_toUInt16]
    show (ra.toNat &&& (2 ^ 3 - 1)) <<< 11 % 2 ^ 16 = _
    rw [Nat.and_two_pow_sub_one_eq_mod]
    simp only [Nat.shiftLeft_eq]
    omega
  have hword : ((ma &&& 0x03FF) <<< 1).toNat = 2 * (ma.toNat % 0x400) := by
    rw [UInt16.toNat_shiftLeft, UInt16.toNat_and]
    show (ma.toNat &&& (2 ^ 10 - 1)) <<< 1 % 2 ^ 16 = _
    rw [Nat.and_two_pow_sub_one_eq_mod, Nat.shiftLeft_eq]
    omega
  have hlow : (ra.toNat % 8) <<< 11 + 2 * (ma.toNat % 0x400) < 2 ^ 14 := by
    rw [Nat.shiftLeft_eq]
    omega
  unfold videoAddress
  rw [UInt16.toNat_or, UInt16.toNat_or, hpage, hraster, hword, Nat.or_assoc,
    ← Nat.shiftLeft_add_eq_or_of_lt (show 2 * (ma.toNat % 0x400) < 2 ^ 11 by omega),
    ← Nat.shiftLeft_add_eq_or_of_lt hlow, Nat.shiftLeft_eq, Nat.shiftLeft_eq]
  omega

/-- Two words of screen memory are the same if all three fields are. -/
theorem videoAddress_eq_iff {ma ma' : UInt16} {ra ra' : UInt8} :
    videoAddress ma ra = videoAddress ma' ra' ↔
      ma.toNat / 0x1000 % 4 = ma'.toNat / 0x1000 % 4 ∧ ra.toNat % 8 = ra'.toNat % 8 ∧
        ma.toNat % 0x400 = ma'.toNat % 0x400 := by
  rw [← UInt16.toNat_inj, toNat_videoAddress, toNat_videoAddress]
  omega

/-- Raster lines that are eight apart show the same memory. -/
theorem videoAddress_add_eight (ma : UInt16) (ra : UInt8) :
    videoAddress ma (ra + 8) = videoAddress ma ra := by
  rw [videoAddress_eq_iff, UInt8.toNat_add]
  exact ⟨rfl, by show (ra.toNat + 8) % 2 ^ 8 % 8 = _; omega, rfl⟩

/-! ## Places of the display -/

/-- A word of the display: where its character is, and the raster line within the row of
characters. -/
structure Place where
  row : Nat
  column : Nat
  raster : Nat

/-- The place belongs to the display that the registers describe. -/
structure Shows (crtc : Crtc) (p : Place) : Prop where
  row : p.row < crtc.verticalDisplayed
  column : p.column < crtc.horizontalDisplayed
  raster : p.raster < crtc.scanlinesPerRow

/-- Where the first byte of the word is in memory. -/
def wordAddress (crtc : Crtc) (p : Place) : UInt16 :=
  videoAddress (crtc.characterAddress p.row.toUInt16 p.column.toUInt16) p.raster.toUInt8

/-- Where the first or the second byte is. -/
def byteAddress (crtc : Crtc) (p : Place) (half : Fin 2) : UInt16 :=
  crtc.wordAddress p + half.val.toUInt16

variable {crtc : Crtc} {p q : Place}

/-- The number of the place's character, counted along the rows from the top left one. -/
def Place.character (crtc : Crtc) (p : Place) : Nat :=
  p.row * crtc.horizontalDisplayed + p.column

theorem Shows.character_lt (h : crtc.Shows p) :
    p.character crtc < crtc.horizontalDisplayed * crtc.verticalDisplayed := by
  have hcolumn := h.column
  have hrows := Nat.mul_le_mul_right crtc.horizontalDisplayed (Nat.succ_le_of_lt h.row)
  rw [Nat.succ_mul, Nat.mul_comm crtc.verticalDisplayed] at hrows
  unfold Place.character
  omega

theorem Shows.eq_of_character_eq (hp : crtc.Shows p) (hq : crtc.Shows q)
    (h : p.character crtc = q.character crtc) : p.row = q.row ∧ p.column = q.column := by
  have hwidth : 0 < crtc.horizontalDisplayed := Nat.zero_lt_of_lt hp.column
  have hdivides {r : Place} (hr : crtc.Shows r) :
      r.character crtc / crtc.horizontalDisplayed = r.row ∧
        r.character crtc % crtc.horizontalDisplayed = r.column :=
    (Nat.div_mod_unique hwidth).mpr
      ⟨by rw [Place.character, Nat.add_comm, Nat.mul_comm], hr.column⟩
  obtain ⟨hrow, hcolumn⟩ := hdivides hp
  obtain ⟨hrow', hcolumn'⟩ := hdivides hq
  exact ⟨by rw [← hrow, h, hrow'], by rw [← hcolumn, h, hcolumn']⟩

theorem Shows.toNat_characterAddress (h : crtc.Shows p) :
    (crtc.characterAddress p.row.toUInt16 p.column.toUInt16).toNat =
      (crtc.startAddress.toNat + p.character crtc) % 0x4000 := by
  have hrow : p.row < 2 ^ 16 :=
    Nat.lt_trans h.row (Nat.lt_trans (crtc.regs[6]).toNat_lt (by decide))
  have hcolumn : p.column < 2 ^ 16 :=
    Nat.lt_trans h.column (Nat.lt_trans (crtc.regs[1]).toNat_lt (by decide))
  rw [Crtc.toNat_characterAddress, show p.row.toUInt16.toNat = p.row from
    UInt16.toNat_ofNat_of_lt hrow, show p.column.toUInt16.toNat = p.column from
    UInt16.toNat_ofNat_of_lt hcolumn, Nat.add_assoc, Place.character]

/-! ## No byte twice -/

-- A word begins at an even address, so adding one changes the lowest bit alone.
theorem toNat_byteAddress (crtc : Crtc) (p : Place) (half : Fin 2) :
    (crtc.byteAddress p half).toNat = (crtc.wordAddress p).toNat + half ∧
      (crtc.wordAddress p).toNat % 2 = 0 := by
  have hword := toNat_videoAddress (crtc.characterAddress p.row.toUInt16 p.column.toUInt16)
    p.raster.toUInt8
  have hhalf := half.isLt
  unfold byteAddress wordAddress
  rw [UInt16.toNat_add, show half.val.toUInt16.toNat = half.val % 2 ^ 16 from UInt16.toNat_ofNat']
  omega

-- The numbers of two characters are less than 1024 apart: the start address does not matter.
theorem Shows.eq_of_wordAddress_eq (hheight : crtc.scanlinesPerRow ≤ 8)
    (hsize : crtc.horizontalDisplayed * crtc.verticalDisplayed ≤ 1024) (hp : crtc.Shows p)
    (hq : crtc.Shows q) (h : crtc.wordAddress p = crtc.wordAddress q) : p = q := by
  obtain ⟨-, hraster, hword⟩ := videoAddress_eq_iff.mp h
  rw [hp.toNat_characterAddress, hq.toNat_characterAddress] at hword
  have hcharacter : p.character crtc = q.character crtc := by
    have := hp.character_lt
    have := hq.character_lt
    omega
  have hsame : p.raster = q.raster := by
    have := hp.raster
    have := hq.raster
    rw [show p.raster.toUInt8.toNat = p.raster % 2 ^ 8 from UInt8.toNat_ofNat',
      show q.raster.toUInt8.toNat = q.raster % 2 ^ 8 from UInt8.toNat_ofNat'] at hraster
    omega
  obtain ⟨hrow, hcolumn⟩ := hp.eq_of_character_eq hq hcharacter
  cases p
  congr

theorem Shows.eq_of_byteAddress_eq (hheight : crtc.scanlinesPerRow ≤ 8)
    (hsize : crtc.horizontalDisplayed * crtc.verticalDisplayed ≤ 1024) (hp : crtc.Shows p)
    (hq : crtc.Shows q) {i j : Fin 2} (h : crtc.byteAddress p i = crtc.byteAddress q j) :
    p = q ∧ i = j := by
  obtain ⟨hbyte, heven⟩ := crtc.toNat_byteAddress p i
  obtain ⟨hbyte', heven'⟩ := crtc.toNat_byteAddress q j
  have hsame := congrArg UInt16.toNat h
  have hword : crtc.wordAddress p = crtc.wordAddress q := by
    rw [← UInt16.toNat_inj]
    omega
  exact ⟨hp.eq_of_wordAddress_eq hheight hsize hq hword, by omega⟩

theorem scanlinesPerRow_le (h : crtc.register 9 ≤ 7) : crtc.scanlinesPerRow ≤ 8 := by
  have hle : (crtc.regs[9]).toNat ≤ 7 := UInt8.le_iff_toNat_le.mp h
  unfold scanlinesPerRow
  omega

/-- A screen of no more than 1024 characters and 8 raster lines a row shows no byte of memory twice,
and the second byte of a word is at the odd address after the even one of the first. -/
theorem byteAddress_inj (hlines : crtc.register 9 ≤ 7)
    (hsize : crtc.horizontalDisplayed * crtc.verticalDisplayed ≤ 1024) :
    (∀ p q i j, crtc.Shows p → crtc.Shows q → crtc.byteAddress p i = crtc.byteAddress q j →
      p = q ∧ i = j) ∧
    ∀ p, crtc.Shows p → (crtc.byteAddress p 0).toNat % 2 = 0 ∧
      (crtc.byteAddress p 1).toNat = (crtc.byteAddress p 0).toNat + 1 := by
  constructor
  · intro p q i j hp hq heq
    exact hp.eq_of_byteAddress_eq (scanlinesPerRow_le hlines) hsize hq heq
  · intro p _
    obtain ⟨hfirst, heven⟩ := crtc.toNat_byteAddress p 0
    obtain ⟨hsecond, -⟩ := crtc.toNat_byteAddress p 1
    rw [hfirst, hsecond]
    exact ⟨heven, rfl⟩

-- The firmware's screen, moved so that its second character is past the end of the addresses.
theorem byteAddress_inj_wrapped :
    let crtc := (default : Crtc).setRegister 12 0x3F |>.setRegister 13 0xFF
    crtc.startAddress = 0x3FFF ∧ crtc.byteAddress ⟨0, 1, 0⟩ 0 = 0 ∧
      (∀ p q i j, crtc.Shows p → crtc.Shows q → crtc.byteAddress p i = crtc.byteAddress q j →
        p = q ∧ i = j) ∧
      ∀ p, crtc.Shows p → (crtc.byteAddress p 0).toNat % 2 = 0 ∧
        (crtc.byteAddress p 1).toNat = (crtc.byteAddress p 0).toNat + 1 :=
  ⟨by decide, by decide, byteAddress_inj (by decide) (by decide)⟩

end Crtc

namespace Picture

variable {crtc : Crtc} {line line' column column' : Nat}

theorem shows_of_lt (hline : line < crtc.verticalDisplayed * crtc.scanlinesPerRow)
    (hcolumn : column < crtc.horizontalDisplayed) :
    crtc.Shows ⟨line / crtc.scanlinesPerRow, column, line % crtc.scanlinesPerRow⟩ where
  row := (Nat.div_lt_iff_lt_mul (Nat.succ_pos _)).mpr hline
  column := hcolumn
  raster := Nat.mod_lt line (Nat.succ_pos _)

/-- The bytes that the picture takes from memory for two lines and columns are apart too. -/
theorem address_inj (hlines : crtc.register 9 ≤ 7)
    (hsize : crtc.horizontalDisplayed * crtc.verticalDisplayed ≤ 1024)
    (hline : line < crtc.verticalDisplayed * crtc.scanlinesPerRow)
    (hline' : line' < crtc.verticalDisplayed * crtc.scanlinesPerRow)
    (hcolumn : column < crtc.horizontalDisplayed) (hcolumn' : column' < crtc.horizontalDisplayed)
    {i j : Fin 2} (h : address crtc line column + i.val.toUInt16 =
      address crtc line' column' + j.val.toUInt16) :
    line = line' ∧ column = column' ∧ i = j := by
  obtain ⟨hplace, hhalf⟩ := (shows_of_lt hline hcolumn).eq_of_byteAddress_eq
    (Crtc.scanlinesPerRow_le hlines) hsize (shows_of_lt hline' hcolumn') h
  injection hplace with hrow hcolumn hraster
  refine ⟨?_, hcolumn, hhalf⟩
  rw [← Nat.div_add_mod line crtc.scanlinesPerRow, hrow, hraster, Nat.div_add_mod]

end Picture

end AmstradCpc
