import AmstradCpc.Proofs.Screen.Canvas
import AmstradCpc.Screen.Picture

/-!
# The colour of every pixel

Where a pixel of the canvas gets its colour from: if it lies in the display, from a byte of screen
memory, else from the border. The display reaches past the edges of the canvas when the sync
positions say so, so its corner is a pair of integers.

`Picture.draw` puts the canvas together from cells of 16 pixels; `pixelBytes_draw` says that this is
the formula, pixel by pixel.
-/

namespace AmstradCpc

/-! ## Pixels of a byte -/

namespace Pixels

theorem count_cases (mode : UInt8) : count mode = 2 ∨ count mode = 4 ∨ count mode = 8 := by
  unfold count
  split <;> simp

theorem div_lt_count (mode : UInt8) (n : Fin 8) : n / (8 / count mode) < count mode := by
  have hn := n.isLt
  rcases count_cases mode with h | h | h <;> rw [h] <;> omega

/-- The pen of pixel `n` of the eight that a byte covers. -/
def penOf (mode b : UInt8) (n : Fin 8) : UInt8 :=
  (decode mode b).get ⟨n / (8 / count mode), by rw [length_decode]; exact div_lt_count mode n⟩

theorem penOf_eq {mode b pen : UInt8} {n : Fin 8} {i : Nat} (hi : n / (8 / count mode) = i)
    (hpen : (decode mode b)[i]? = some pen) : penOf mode b n = pen := by
  subst hi
  unfold penOf
  rw [List.get_eq_getElem]
  exact (List.getElem?_eq_some_iff.mp hpen).2

theorem bit_cases (b n : UInt8) : bit b n = 0 ∨ bit b n = 1 := by
  have hbit : (bit b n).toNat ≤ 1 := by
    unfold bit
    rw [UInt8.toNat_and]
    exact Nat.and_le_right
  rw [← UInt8.toNat_inj, ← UInt8.toNat_inj]
  show _ = 0 ∨ _ = 1
  omega

theorem pen0_lt (b n : UInt8) : (pen0 b n).toNat < 16 := by
  unfold pen0
  rcases bit_cases b (7 - n) with h₀ | h₀ <;> rcases bit_cases b (3 - n) with h₁ | h₁ <;>
    rcases bit_cases b (5 - n) with h₂ | h₂ <;> rcases bit_cases b (1 - n) with h₃ | h₃ <;>
      rw [h₀, h₁, h₂, h₃] <;> decide

theorem pen1_lt (b n : UInt8) : (pen1 b n).toNat < 16 := by
  unfold pen1
  rcases bit_cases b (7 - n) with h₀ | h₀ <;> rcases bit_cases b (3 - n) with h₁ | h₁ <;>
    rw [h₀, h₁] <;> decide

theorem pen2_lt (b n : UInt8) : (pen2 b n).toNat < 16 := by
  unfold pen2
  rcases bit_cases b (7 - n) with h | h <;> rw [h] <;> decide

/-- No pixel of a byte has the pen of the border. -/
theorem decode_lt {mode b pen : UInt8} (h : pen ∈ decode mode b) : pen.toNat < 16 := by
  unfold decode at h
  split at h <;> simp only [List.mem_cons, List.not_mem_nil, or_false] at h
  · rcases h with rfl | rfl <;> exact pen0_lt b _
  · rcases h with rfl | rfl | rfl | rfl <;> exact pen1_lt b _
  · rcases h with rfl | rfl | rfl | rfl | rfl | rfl | rfl | rfl <;> exact pen2_lt b _
  · rcases h with rfl | rfl <;> rw [UInt8.toNat_and] <;>
      exact Nat.lt_of_le_of_lt Nat.and_le_left (pen0_lt b _)

end Pixels

namespace Picture

/-! ## The formula -/

/-- The column of the canvas where the display begins. -/
def left (crtc : Crtc) : Int := 64 + (46 - (crtc.register 2).toNat) * 16

/-- The row of the canvas where the display begins. -/
def top (crtc : Crtc) : Int := 36 + (30 - (crtc.register 7).toNat) * crtc.scanlinesPerRow

/-- The pixel belongs to the display. -/
def Displayed (crtc : Crtc) (x y : Nat) : Prop :=
  (0 ≤ y - top crtc ∧ y - top crtc < crtc.verticalDisplayed * crtc.scanlinesPerRow) ∧
    0 ≤ x - left crtc ∧ x - left crtc < 16 * crtc.horizontalDisplayed

instance (crtc : Crtc) (x y : Nat) : Decidable (Displayed crtc x y) :=
  inferInstanceAs (Decidable ((_ ∧ _) ∧ _ ∧ _))

/-- The pen of pixel `n` in a line of the display. -/
def linePen (crtc : Crtc) (mode : UInt8) (memory : Memory) (line n : Nat) : UInt8 :=
  let byte := address crtc line (n / 16) + (n / 8 % 2).toUInt16
  Pixels.penOf mode (memory.videoRead byte) ⟨n % 8, Nat.mod_lt n (by decide)⟩

/-- The pen of a pixel of the canvas. -/
def penAt (crtc : Crtc) (mode : UInt8) (memory : Memory) (x y : Nat) : UInt8 :=
  if Displayed crtc x y then
    linePen crtc mode memory (y - top crtc).toNat (x - left crtc).toNat
  else GateArray.border

/-- The code of a pixel of the canvas. -/
def codeAt (format : PixelFormat) (monitor : Monitor) (crtc : Crtc) (ga : GateArray)
    (memory : Memory) (x y : Nat) : UInt32 :=
  format.encode monitor (ga.ink (penAt crtc ga.mode memory x y).toNat)

/-! ## Lines and columns -/

theorem line?_eq_some {crtc : Crtc} {y line : Nat} (h : line? crtc y = some line) :
    (y : Int) - top crtc = line ∧ line < crtc.verticalDisplayed * crtc.scanlinesPerRow := by
  unfold line? at h
  dsimp only at h
  split at h
  case isTrue hline =>
    obtain ⟨htop, hlt⟩ := hline
    obtain rfl := Option.some.inj h
    refine ⟨?_, hlt⟩
    unfold top
    rw [Int.sub_mul]
    omega
  case isFalse => cases h

theorem line?_eq_none {crtc : Crtc} {y : Nat} (h : line? crtc y = none) (x : Nat) :
    ¬ Displayed crtc x y := by
  unfold line? at h
  dsimp only at h
  split at h
  case isTrue => cases h
  case isFalse hline =>
    rintro ⟨⟨hle, hlt⟩, -⟩
    unfold top at hle hlt
    rw [Int.sub_mul] at hle hlt
    omega

-- A cell is 16 pixels wide, and the display begins and ends at the edge of one.
theorem column?_eq_some {crtc : Crtc} {cell column : Nat} (h : column? crtc cell = some column)
    (n : Nat) : ((cell * 16 + n : Nat) : Int) - left crtc = (column * 16 + n : Nat) ∧
      column < crtc.horizontalDisplayed := by
  unfold column? at h
  dsimp only at h
  split at h
  case isTrue hcolumn =>
    obtain ⟨hle, hlt⟩ := hcolumn
    obtain rfl := Option.some.inj h
    refine ⟨?_, hlt⟩
    unfold left
    omega
  case isFalse => cases h

theorem column?_eq_none {crtc : Crtc} {cell n : Nat} (h : column? crtc cell = none)
    (hn : n < 16) (y : Nat) : ¬ Displayed crtc (cell * 16 + n) y := by
  unfold column? at h
  dsimp only at h
  split at h
  case isTrue => cases h
  case isFalse hcolumn =>
    rintro ⟨-, hle, hlt⟩
    unfold left at hle hlt
    omega

/-! ## Cells -/

/-- The pens of the 16 pixels of a cell. -/
def cellPens (crtc : Crtc) (mode : UInt8) (memory : Memory) (line? : Option Nat) (cell : Nat) :
    List UInt8 :=
  match line?, column? crtc cell with
  | some line, some column =>
    let a := address crtc line column
    pens mode (memory.videoRead a) ++ pens mode (memory.videoRead (a + 1))
  | _, _ => List.replicate 16 GateArray.border

theorem getElem?_flatMap_replicate {α : Type} {k : Nat} (hk : 0 < k) (l : List α) (i : Nat) :
    (l.flatMap (List.replicate k))[i]? = l[i / k]? := by
  induction l generalizing i with
  | nil => simp
  | cons a l ih =>
    rw [List.flatMap_cons, List.getElem?_append, List.length_replicate]
    by_cases hi : i < k
    · rw [if_pos hi, List.getElem?_replicate, if_pos hi, Nat.div_eq_of_lt hi]
      rfl
    · obtain ⟨j, rfl⟩ : ∃ j, i = k + j := ⟨i - k, by omega⟩
      rw [if_neg hi, Nat.add_sub_cancel_left, ih, Nat.add_div_left _ hk]
      rfl

theorem length_pens (mode b : UInt8) : (pens mode b).length = 8 := by
  unfold pens
  rw [length_flatMap_of_length fun _ _ => List.length_replicate, Pixels.length_decode]
  rcases Pixels.count_cases mode with h | h | h <;> rw [h]

theorem getElem?_pens (mode b : UInt8) (n : Fin 8) :
    (pens mode b)[n.val]? = some (Pixels.penOf mode b n) := by
  have hwide : 0 < 8 / Pixels.count mode := by
    rcases Pixels.count_cases mode with h | h | h <;> rw [h] <;> decide
  unfold pens Pixels.penOf
  rw [getElem?_flatMap_replicate hwide, List.get_eq_getElem]
  exact List.getElem?_eq_getElem _

theorem length_cellPens (crtc : Crtc) (mode : UInt8) (memory : Memory) (line? : Option Nat)
    (cell : Nat) : (cellPens crtc mode memory line? cell).length = 16 := by
  unfold cellPens
  split
  · rw [List.length_append, length_pens, length_pens]
  · exact List.length_replicate

theorem getElem?_cellPens (crtc : Crtc) (mode : UInt8) (memory : Memory) (cell y : Nat) {n : Nat}
    (hn : n < 16) : (cellPens crtc mode memory (line? crtc y) cell)[n]? =
      some (penAt crtc mode memory (cell * 16 + n) y) := by
  have hborder (h : ¬ Displayed crtc (cell * 16 + n) y) :
      (List.replicate 16 GateArray.border)[n]? =
        some (penAt crtc mode memory (cell * 16 + n) y) := by
    unfold penAt
    rw [if_neg h, List.getElem?_replicate, if_pos hn]
  unfold cellPens
  cases hline : line? crtc y with
  | none => exact hborder (line?_eq_none hline _)
  | some line =>
    cases hcolumn : column? crtc cell with
    | none => exact hborder (column?_eq_none hcolumn hn y)
    | some column =>
      obtain ⟨hy, hheight⟩ := line?_eq_some hline
      obtain ⟨hx, hwidth⟩ := column?_eq_some hcolumn n
      have hdisplayed : Displayed crtc (cell * 16 + n) y := by
        unfold Displayed
        rw [hx, hy]
        omega
      unfold penAt linePen
      rw [if_pos hdisplayed, hx, hy]
      dsimp only [Int.toNat_natCast]
      have hpixel : (column * 16 + n) / 16 = column := by omega
      rw [hpixel, List.getElem?_append, length_pens]
      by_cases hfirst : n < 8
      · have hhalf : (column * 16 + n) / 8 % 2 = 0 := by omega
        have hplace : (column * 16 + n) % 8 = n := by omega
        have hbyte : address crtc line column + (0 : Nat).toUInt16 = address crtc line column :=
          UInt16.add_zero _
        simp only [hhalf, hplace, hbyte]
        rw [if_pos hfirst]
        exact getElem?_pens mode _ ⟨n, hfirst⟩
      · have hhalf : (column * 16 + n) / 8 % 2 = 1 := by omega
        have hplace : (column * 16 + n) % 8 = n - 8 := by omega
        simp only [hhalf, hplace]
        rw [if_neg hfirst]
        exact getElem?_pens mode _ ⟨n - 8, by omega⟩

/-! ## The canvas -/

section Canvas

variable (format : PixelFormat) (monitor : Monitor) (crtc : Crtc) (ga : GateArray)
  (memory : Memory)

/-- The bytes of a cell. -/
def cellBytes (y cell : Nat) : List UInt8 :=
  (cellPens crtc ga.mode memory (line? crtc y) cell).flatMap fun pen =>
    format.bytes (format.encode monitor (ga.ink pen.toNat))

-- The brush for a byte holds the pixels of its eight pens.
theorem screen_brush (b : UInt8) :
    (Brushes.of format monitor ga).screen[b.toFin] =
      pixels format monitor ga (pens ga.mode b) := by
  show (Vector.ofFn _)[b.toFin.val] = _
  rw [Vector.getElem_ofFn]
  have hb : b.toFin.val.toUInt8 = b := UInt8.ofNat_toNat
  rw [hb]

theorem drawCell_eq (y : Nat) (out : ByteArray) (cell : Nat) :
    (drawCell (.of format monitor ga) crtc memory (line? crtc y) out cell).data.toList =
      out.data.toList ++ cellBytes format monitor crtc ga memory y cell := by
  unfold drawCell cellBytes cellPens
  cases line? crtc y with
  | none => simp [Brushes.of, pixels]
  | some line =>
    cases column? crtc cell with
    | none => simp [Brushes.of, pixels]
    | some column =>
      dsimp only
      rw [screen_brush, screen_brush, List.flatMap_append, ← List.append_assoc]
      simp [pixels]

theorem foldl_toList {α : Type} {f : ByteArray → α → ByteArray} {g : α → List UInt8}
    (h : ∀ out a, (f out a).data.toList = out.data.toList ++ g a) (xs : List α) (out : ByteArray) :
    (xs.foldl f out).data.toList = out.data.toList ++ xs.flatMap g := by
  induction xs generalizing out with
  | nil => simp
  | cons a xs ih => rw [List.foldl_cons, ih, h, List.flatMap_cons, List.append_assoc]

theorem draw_eq_flatMap : (draw format monitor crtc ga memory).data.toList =
    (List.range Framebuffer.height).flatMap fun y =>
      (List.range cells).flatMap (cellBytes format monitor crtc ga memory y) := by
  have hrow (out : ByteArray) (y : Nat) :
      (drawRow (.of format monitor ga) crtc memory out y).data.toList = out.data.toList ++
        (List.range cells).flatMap (cellBytes format monitor crtc ga memory y) :=
    foldl_toList (drawCell_eq format monitor crtc ga memory y) _ out
  have hempty (n : Nat) : (ByteArray.emptyWithCapacity n).data.toList = [] := rfl
  unfold draw
  rw [foldl_toList hrow, hempty, List.nil_append]

theorem length_cellBytes (y cell : Nat) :
    (cellBytes format monitor crtc ga memory y cell).length = 16 * format.bytesPerPixel := by
  unfold cellBytes
  rw [length_flatMap_of_length fun _ _ => PixelFormat.length_bytes format _, length_cellPens]

theorem length_row (y : Nat) :
    ((List.range cells).flatMap (cellBytes format monitor crtc ga memory y)).length =
      Framebuffer.width * format.bytesPerPixel := by
  rw [length_flatMap_of_length fun cell _ => length_cellBytes format monitor crtc ga memory y cell,
    List.length_range, ← Nat.mul_assoc]
  rfl

end Canvas

end Picture

namespace Framebuffer

/-- The canvas with the picture of a machine on it. -/
def showing (fb : Framebuffer) (crtc : Crtc) (ga : GateArray) (memory : Memory) : Framebuffer :=
  { fb with data := Picture.draw fb.format fb.monitor crtc ga memory }

variable (fb : Framebuffer) (crtc : Crtc) (ga : GateArray) (memory : Memory)

theorem sized_showing : (fb.showing crtc ga memory).Sized := by
  show (Picture.draw fb.format fb.monitor crtc ga memory).data.size = height * fb.stride
  rw [← Array.length_toList, Picture.draw_eq_flatMap, length_flatMap_of_length fun y _ =>
    Picture.length_row fb.format fb.monitor crtc ga memory y, List.length_range]
  rfl

/-- Every pixel has the colour that the formula says. -/
theorem pixelBytes_showing {x y : Nat} (hx : x < width) (hy : y < height) :
    (fb.showing crtc ga memory).pixelBytes x y =
      fb.format.bytes (Picture.codeAt fb.format fb.monitor crtc ga memory x y) := by
  have hcell : x / 16 < Picture.cells := by
    show x / 16 < 48
    have hwidth : x < 768 := hx
    omega
  have hn : x % 16 < 16 := Nat.mod_lt x (by decide)
  have hpixel : x / 16 * 16 + x % 16 = x := Nat.div_add_mod' x 16
  -- the row within the canvas, the cell within the row, and the pixel within the cell
  obtain ⟨below, hrow⟩ := Disk.drop_flatMap
    (fun y _ => Picture.length_row fb.format fb.monitor crtc ga memory y)
    (List.getElem?_range hy)
  obtain ⟨right, hcells⟩ := Disk.drop_flatMap
    (fun cell _ => Picture.length_cellBytes fb.format fb.monitor crtc ga memory y cell)
    (List.getElem?_range hcell)
  obtain ⟨rest, hpens⟩ := Disk.drop_flatMap
    (fun pen _ => PixelFormat.length_bytes fb.format
      (fb.format.encode fb.monitor (ga.ink (UInt8.toNat pen))))
    (Picture.getElem?_cellPens crtc ga.mode memory (x / 16) y hn)
  have hplace : x * fb.format.bytesPerPixel =
      x / 16 * (16 * fb.format.bytesPerPixel) + x % 16 * fb.format.bytesPerPixel := by
    rw [← Nat.mul_assoc, ← Nat.add_mul, hpixel]
  have hinRow : x * fb.format.bytesPerPixel ≤ width * fb.format.bytesPerPixel :=
    Nat.mul_le_mul_right _ (Nat.le_of_lt hx)
  have hinCell : x % 16 * fb.format.bytesPerPixel ≤ 16 * fb.format.bytesPerPixel :=
    Nat.mul_le_mul_right _ (Nat.le_of_lt hn)
  show (List.drop (y * (width * fb.format.bytesPerPixel) + x * fb.format.bytesPerPixel)
    (Picture.draw fb.format fb.monitor crtc ga memory).data.toList).take
      fb.format.bytesPerPixel = _
  rw [Picture.draw_eq_flatMap, ← List.drop_drop, hrow,
    List.drop_append_of_le_length (by rw [Picture.length_row]; exact hinRow), hplace,
    ← List.drop_drop, hcells,
    List.drop_append_of_le_length (by rw [Picture.length_cellBytes]; exact hinCell)]
  unfold Picture.cellBytes
  rw [hpens, hpixel, List.append_assoc, List.append_assoc]
  exact List.take_left' (PixelFormat.length_bytes fb.format _)

end Framebuffer

end AmstradCpc
