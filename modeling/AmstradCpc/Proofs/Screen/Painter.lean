import AmstradCpc.Machine.Frame
import AmstradCpc.Proofs.Mainboard.Registers
import AmstradCpc.Proofs.Screen.PixelFormula

/-!
# Painting over the last picture

The picture can also be painted over the one before it: the border in every row, and then the
display, line by line and pixel by pixel, clipped at the edges of the canvas. Here every step that
could go wrong says so: a span outside the data, a pen without a code, a byte outside the RAM, a
division by zero, a row too high for a byte.

`Painter.paint_eq` says that none of this happens and that nothing of the last picture stays: what is
painted is the picture that `Picture.draw` makes.
-/

namespace AmstradCpc

/-! ## Registers of the CRTC -/

namespace Crtc

/-- The states that the chip's operations lead to. -/
inductive Reached : Crtc → Prop
  | powerOn : Reached {}
  | select (v : UInt8) {crtc : Crtc} (h : Reached crtc) : Reached (crtc.select v)
  | write (v : UInt8) {crtc : Crtc} (h : Reached crtc) : Reached (crtc.write v)
  | setRegister (n : Nat) (v : UInt8) {crtc : Crtc} (h : Reached crtc) :
    Reached (crtc.setRegister n v)

theorem Reached.valid {crtc : Crtc} (h : crtc.Reached) : crtc.Valid := by
  induction h with
  | powerOn => exact valid_powerOn
  | select v _ ih => exact ih.select v
  | write v _ ih => exact ih.write v
  | setRegister n v _ ih => exact ih.setRegister n v

-- Register 9 keeps five bits.
theorem Valid.scanlinesPerRow_le {crtc : Crtc} (h : crtc.Valid) : crtc.scanlinesPerRow ≤ 32 := by
  have hmask : crtc.regs[9] &&& (0x1F : UInt8) = crtc.regs[9] := h.regs 9 (by decide)
  have hle : (crtc.regs[9] &&& (0x1F : UInt8)).toNat ≤ 0x1F := by
    rw [UInt8.toNat_and]
    exact Nat.and_le_right
  rw [hmask] at hle
  exact Nat.succ_le_succ hle

end Crtc

/-! ## The painter -/

namespace Painter

open Framebuffer

def quotient? (a b : Nat) : Option Nat := if b = 0 then none else some (a / b)

def remainder? (a b : Nat) : Option Nat := if b = 0 then none else some (a % b)

/-- Scanlines in a row, which the chip counts in a byte. -/
def scanlines? (crtc : Crtc) : Option Nat :=
  if crtc.scanlinesPerRow < 0x100 then some crtc.scanlinesPerRow else none

/-- The codes of the pens. -/
def codes (format : PixelFormat) (monitor : Monitor) (ga : GateArray) : Vector UInt32 17 :=
  .ofFn fun pen => format.encode monitor (ga.ink pen)

section

variable (codes : Vector UInt32 17)

def paintBorder (fb : Framebuffer) : Option Framebuffer :=
  (List.range height).foldlM (fun fb y => fb.putSpan? 0 y width codes[16]) fb

/-- Paints a pixel of the display, so many pixels of the canvas wide. One that is not wholly on the
canvas is left out. -/
def paintPixel (wide : Nat) (pen : UInt8) (x : Int) (y : Nat) (fb : Framebuffer) :
    Option Framebuffer :=
  if x < 0 ∨ width < x.toNat + wide then some fb
  else codes[pen.toNat]?.bind fun code => fb.putSpan? x.toNat y wide code

def paintByte (mode b : UInt8) (x : Int) (y : Nat) (fb : Framebuffer) : Option Framebuffer :=
  (quotient? 8 (Pixels.count mode)).bind fun wide =>
    (List.range (Pixels.count mode)).foldlM (fun fb (i : Nat) =>
      (Pixels.decode mode b)[i]?.bind fun pen => paintPixel codes wide pen (x + i * wide) y fb) fb

/-- Paints the two bytes of a character. -/
def paintCharacter (mode : UInt8) (memory : Memory) (a : UInt16) (x : Int) (y : Nat)
    (fb : Framebuffer) : Option Framebuffer :=
  (List.range 2).foldlM (fun fb (half : Nat) =>
    memory.ram.data[(a + half.toUInt16).toNat]?.bind fun b =>
      paintByte codes mode b (x + half * 8) y fb) fb

variable (crtc : Crtc) (mode : UInt8) (memory : Memory)

def paintLine (scanlines line y : Nat) (fb : Framebuffer) : Option Framebuffer :=
  (quotient? line scanlines).bind fun row => (remainder? line scanlines).bind fun raster =>
    (List.range crtc.horizontalDisplayed).foldlM (fun fb (column : Nat) =>
      let a := Crtc.videoAddress (crtc.characterAddress row.toUInt16 column.toUInt16) raster.toUInt8
      paintCharacter codes mode memory a (Picture.left crtc + column * 16) y fb) fb

/-- Paints lines of the display up to the lower edge of the canvas. Those above its upper edge are
left out. -/
def paintLines (scanlines : Nat) : List Nat → Framebuffer → Option Framebuffer
  | [], fb => some fb
  | line :: lines, fb =>
    let y := Picture.top crtc + line
    if y < 0 then paintLines scanlines lines fb
    else if height ≤ y.toNat then some fb
    else (paintLine codes crtc mode memory scanlines line y.toNat fb).bind
      (paintLines scanlines lines)

end

def paint (crtc : Crtc) (ga : GateArray) (memory : Memory) (fb : Framebuffer) :
    Option Framebuffer :=
  let codes := codes fb.format fb.monitor ga
  (paintBorder codes fb).bind fun fb =>
    (scanlines? crtc).bind fun scanlines =>
      paintLines codes crtc ga.mode memory scanlines
        (List.range (crtc.verticalDisplayed * scanlines)) fb

/-! ## What is painted -/

section

variable {code : Nat → Nat → UInt32} {y : Nat}

theorem paints_paintBorder (codes : Vector UInt32 17) (hcode : ∀ x y, code x y = codes[16]) :
    Paints code (fun _ _ => True) (paintBorder codes) := by
  have hrow (y : Nat) (hy : y < height) :
      Paints code (fun x' y' => y' = y ∧ 0 ≤ x' ∧ x' < 0 + width)
        (fun fb => fb.putSpan? 0 y width codes[16]) :=
    paints_putSpan? (by omega) hy fun x _ _ => hcode x y
  refine (paints_foldlM hrow).congr fun x hx y hy => ?_
  have hcovered : ∃ i < height, y = i ∧ 0 ≤ x ∧ x < 0 + width := ⟨y, hy, rfl, by omega, by omega⟩
  exact ⟨fun _ => hcovered, fun _ => trivial⟩

/-- A pixel that begins at a multiple of its width is on the canvas as a whole or not at all. -/
theorem paints_paintPixel {codes : Vector UInt32 17} {wide : Nat}
    (hwide : wide = 4 ∨ wide = 2 ∨ wide = 1) {x : Int} (hx : x % wide = 0) (hy : y < height)
    {pen : UInt8} {c : UInt32} (hpen : codes[pen.toNat]? = some c)
    (hcode : ∀ x' : Nat, x ≤ x' → x' < x + wide → code x' y = c) :
    Paints code (fun x' y' => y' = y ∧ x ≤ x' ∧ x' < x + wide) (paintPixel codes wide pen x y) := by
  by_cases hout : x < 0 ∨ width < x.toNat + wide
  · have hnone : paintPixel codes wide pen x y = some := by
      funext fb
      unfold paintPixel
      rw [if_pos hout]
    rw [hnone]
    refine (paints_some code).congr fun x' hx' y' _ => ⟨?_, False.elim⟩
    rintro ⟨-, hle, hlt⟩
    have hwidth : width = 768 := rfl
    rw [hwidth] at hout hx'
    rcases hwide with rfl | rfl | rfl <;> omega
  · have hspan : paintPixel codes wide pen x y = putSpan? x.toNat y wide c := by
      funext fb
      unfold paintPixel
      rw [if_neg hout, hpen]
      rfl
    rw [hspan]
    have hpaints : Paints code (fun x' y' => y' = y ∧ x.toNat ≤ x' ∧ x' < x.toNat + wide)
        (putSpan? x.toNat y wide c) :=
      paints_putSpan? (by omega) hy fun x' hle hlt => hcode x' (by omega) (by omega)
    refine hpaints.congr fun x' _ y' _ => ?_
    omega

variable {format : PixelFormat} {monitor : Monitor} {ga : GateArray}

theorem codes_border (format : PixelFormat) (monitor : Monitor) (ga : GateArray) :
    (codes format monitor ga)[16] = format.encode monitor (ga.ink GateArray.border.toNat) := by
  unfold codes
  rw [Vector.getElem_ofFn]
  rfl

theorem getElem?_codes (format : PixelFormat) (monitor : Monitor) (ga : GateArray) {pen : UInt8}
    (h : pen.toNat < 16) : (codes format monitor ga)[pen.toNat]? =
      some (format.encode monitor (ga.ink pen.toNat)) := by
  have hpen : pen.toNat < 17 := by omega
  unfold codes
  rw [Vector.getElem?_eq_getElem hpen, Vector.getElem_ofFn]

theorem paints_paintByte {mode b : UInt8} {x : Int} (hx : x % 8 = 0) (hy : y < height)
    (hcode : ∀ (n : Fin 8) (x' : Nat), (x' : Int) = x + n →
      code x' y = format.encode monitor (ga.ink (Pixels.penOf mode b n).toNat)) :
    Paints code (fun x' y' => y' = y ∧ x ≤ x' ∧ x' < x + 8)
      (paintByte (codes format monitor ga) mode b x y) := by
  obtain ⟨wide, hwide, hcases, hcover⟩ : ∃ wide, 8 / Pixels.count mode = wide ∧
      (wide = 4 ∨ wide = 2 ∨ wide = 1) ∧ Pixels.count mode * wide = 8 := by
    rcases Pixels.count_cases mode with h | h | h <;> rw [h] <;> exact ⟨_, rfl, by decide⟩
  have hpixel (i : Nat) (hi : i < Pixels.count mode) :
      Paints code (fun x' y' => y' = y ∧ x + i * wide ≤ x' ∧ x' < x + i * wide + wide)
        (fun fb => (Pixels.decode mode b)[i]?.bind fun pen =>
          paintPixel (codes format monitor ga) wide pen (x + i * wide) y fb) := by
    have hlength : i < (Pixels.decode mode b).length := by rwa [Pixels.length_decode]
    have hpen := List.getElem?_eq_getElem hlength
    have hlt := Pixels.decode_lt (List.mem_of_getElem? hpen)
    have halign : (x + i * wide) % wide = 0 := by
      rcases hcases with rfl | rfl | rfl <;> omega
    rw [hpen]
    refine paints_paintPixel hcases halign hy (getElem?_codes format monitor ga hlt)
      fun x' hle hlt => ?_
    -- pixel `n` of the byte belongs to the pen of its piece
    have hpiece : ((i : Nat) : Int) * wide = (i * wide : Nat) := (Int.natCast_mul _ _).symm
    have hend : (i + 1) * wide ≤ Pixels.count mode * wide := Nat.mul_le_mul_right wide hi
    rw [Nat.succ_mul, hcover] at hend
    obtain ⟨n, hn⟩ : ∃ n : Nat, (x' : Int) = x + n := ⟨(x' - x).toNat, by omega⟩
    have hpen' : n / (8 / Pixels.count mode) = i := by
      rw [hwide]
      exact Nat.div_eq_of_lt_le (by omega) (by rw [Nat.succ_mul]; omega)
    rw [hcode ⟨n, by omega⟩ x' hn, Pixels.penOf_eq hpen' hpen]
  have hbyte : paintByte (codes format monitor ga) mode b x y = fun fb =>
      (List.range (Pixels.count mode)).foldlM (fun fb (i : Nat) =>
        (Pixels.decode mode b)[i]?.bind fun pen =>
          paintPixel (codes format monitor ga) wide pen (x + i * wide) y fb) fb := by
    have hcount : Pixels.count mode ≠ 0 := by
      rcases Pixels.count_cases mode with h | h | h <;> rw [h] <;> decide
    funext fb
    unfold paintByte quotient?
    rw [if_neg hcount, hwide]
    rfl
  have hpos : 0 < wide := by omega
  have hwhole : ((Pixels.count mode : Nat) : Int) * wide = 8 := by
    rw [← Int.natCast_mul, hcover]
    rfl
  have hpaints := paints_pieces hpos hpixel
  rw [hwhole] at hpaints
  rw [hbyte]
  exact hpaints

theorem paints_paintCharacter {mode : UInt8} {memory : Memory} (hram : 0x10000 ≤ memory.ram.size)
    {a : UInt16} {x : Int} (hx : x % 8 = 0) (hy : y < height)
    (hcode : ∀ (n x' : Nat), n < 16 → (x' : Int) = x + n →
      code x' y = format.encode monitor (ga.ink (Pixels.penOf mode
        (memory.videoRead (a + (n / 8).toUInt16)) ⟨n % 8, Nat.mod_lt n (by decide)⟩).toNat)) :
    Paints code (fun x' y' => y' = y ∧ x ≤ x' ∧ x' < x + 16)
      (paintCharacter (codes format monitor ga) mode memory a x y) := by
  have hhalf (half : Nat) (hh : half < 2) :
      Paints code (fun x' y' => y' = y ∧ x + half * 8 ≤ x' ∧ x' < x + half * 8 + 8)
        (fun fb => memory.ram.data[(a + half.toUInt16).toNat]?.bind fun b =>
          paintByte (codes format monitor ga) mode b (x + half * 8) y fb) := by
    have hin : (a + half.toUInt16).toNat < memory.ram.size :=
      Nat.lt_of_lt_of_le (UInt16.toNat_lt _) hram
    have hbyte : memory.ram.data[(a + half.toUInt16).toNat]? =
        some (memory.videoRead (a + half.toUInt16)) := by
      unfold Memory.videoRead
      rw [dif_pos hin]
      exact Array.getElem?_eq_getElem hin
    rw [hbyte]
    refine paints_paintByte (by omega) hy fun n x' hx' => ?_
    have hn := n.isLt
    have hdiv : (half * 8 + n.val) / 8 = half := by omega
    have hmod : (half * 8 + n.val) % 8 = n := by omega
    have hpixel := hcode (half * 8 + n) x' (by omega) (by omega)
    simpa only [hdiv, hmod] using hpixel
  exact paints_pieces (by decide) hhalf

theorem paints_paintLine {crtc : Crtc} {mode : UInt8} {memory : Memory}
    (hram : 0x10000 ≤ memory.ram.size) {line : Nat} (hy : y < height)
    (hcode : ∀ (n x' : Nat), n < 16 * crtc.horizontalDisplayed →
      (x' : Int) = Picture.left crtc + n →
      code x' y =
        format.encode monitor (ga.ink (Picture.linePen crtc mode memory line n).toNat)) :
    Paints code (fun x' y' => y' = y ∧ Picture.left crtc ≤ x' ∧
        x' < Picture.left crtc + 16 * crtc.horizontalDisplayed)
      (paintLine (codes format monitor ga) crtc mode memory crtc.scanlinesPerRow line y) := by
  have hleft : Picture.left crtc % 16 = 0 := by
    unfold Picture.left
    omega
  have hcolumn (column : Nat) (hc : column < crtc.horizontalDisplayed) :
      Paints code (fun x' y' => y' = y ∧ Picture.left crtc + column * 16 ≤ x' ∧
          x' < Picture.left crtc + column * 16 + 16)
        (paintCharacter (codes format monitor ga) mode memory (Picture.address crtc line column)
          (Picture.left crtc + column * 16) y) := by
    refine paints_paintCharacter hram (by omega) hy fun n x' hn hx' => ?_
    have hcell : (column * 16 + n) / 16 = column := by omega
    have hhalf : (column * 16 + n) / 8 % 2 = n / 8 := by omega
    have hpixel : (column * 16 + n) % 8 = n % 8 := by omega
    have hpen := hcode (column * 16 + n) x' (by omega) (by omega)
    unfold Picture.linePen at hpen
    simpa only [hcell, hhalf, hpixel] using hpen
  have hline : paintLine (codes format monitor ga) crtc mode memory crtc.scanlinesPerRow line y =
      fun fb => (List.range crtc.horizontalDisplayed).foldlM (fun fb (column : Nat) =>
        paintCharacter (codes format monitor ga) mode memory (Picture.address crtc line column)
          (Picture.left crtc + column * 16) y fb) fb := by
    funext fb
    have hrow : crtc.scanlinesPerRow ≠ 0 := Nat.succ_ne_zero _
    unfold paintLine quotient? remainder?
    rw [if_neg hrow, if_neg hrow]
    rfl
  rw [hline]
  rw [Int.mul_comm]
  exact paints_pieces (by decide) hcolumn

theorem paintLines_cons (codes : Vector UInt32 17) (crtc : Crtc) (mode : UInt8) (memory : Memory)
    (scanlines line : Nat) (lines : List Nat) :
    paintLines codes crtc mode memory scanlines (line :: lines) =
      if Picture.top crtc + line < 0 then paintLines codes crtc mode memory scanlines lines
      else if height ≤ (Picture.top crtc + line).toNat then some
      else fun fb =>
        (paintLine codes crtc mode memory scanlines line (Picture.top crtc + line).toNat fb).bind
          (paintLines codes crtc mode memory scanlines lines) := by
  funext fb
  rw [paintLines]
  split
  · rfl
  · split <;> rfl

/-- The lines come from top to bottom, so that one below the canvas is the last to look at. -/
theorem paints_paintLines {crtc : Crtc} {memory : Memory} (hram : 0x10000 ≤ memory.ram.size)
    (hcode : ∀ x y, code x y = Picture.codeAt format monitor crtc ga memory x y)
    {lines : List Nat} (hsorted : lines.Pairwise (· < ·))
    (hlines : ∀ line ∈ lines, line < crtc.verticalDisplayed * crtc.scanlinesPerRow) :
    Paints code (fun x y => (∃ line ∈ lines, (y : Int) = Picture.top crtc + line) ∧
        Picture.left crtc ≤ x ∧ x < Picture.left crtc + 16 * crtc.horizontalDisplayed)
      (paintLines (codes format monitor ga) crtc ga.mode memory crtc.scanlinesPerRow lines) := by
  induction lines with
  | nil => exact (paints_some code).congr fun x _ y _ => by simp
  | cons line lines ih =>
    obtain ⟨hfirst, hsorted⟩ := List.pairwise_cons.mp hsorted
    have hrest := ih hsorted fun l hl => hlines l (List.mem_cons_of_mem _ hl)
    have hline := hlines line List.mem_cons_self
    rw [paintLines_cons]
    split
    case isTrue habove =>
      refine hrest.congr fun x _ y _ => ?_
      have hnot : (y : Int) ≠ Picture.top crtc + line := by omega
      simp [hnot]
    case isFalse habove =>
    split
    case isTrue hbelow =>
      refine (paints_some code).congr fun x _ y hy => ⟨?_, False.elim⟩
      rintro ⟨⟨l, hl, hplace⟩, -⟩
      -- a later line is further down still
      have hle : line ≤ l := by
        rcases List.mem_cons.mp hl with rfl | hl
        · exact Nat.le_refl _
        · exact Nat.le_of_lt (hfirst l hl)
      omega
    case isFalse hbelow =>
      have hy : (Picture.top crtc + line).toNat < height := Nat.lt_of_not_le hbelow
      refine ((paints_paintLine hram hy fun n x hn hx => ?_).bind hrest).congr fun x _ y _ => ?_
      · have hplace : ((Picture.top crtc + line).toNat : Int) - Picture.top crtc = line := by omega
        have hcolumn : (x : Int) - Picture.left crtc = n := by omega
        have hdisplayed : Picture.Displayed crtc x (Picture.top crtc + line).toNat := by
          unfold Picture.Displayed
          rw [hplace, hcolumn]
          omega
        rw [hcode]
        unfold Picture.codeAt Picture.penAt
        rw [if_pos hdisplayed, hplace, hcolumn]
        rfl
      · constructor
        · rintro ⟨⟨l, hl, hplace⟩, hx⟩
          rcases List.mem_cons.mp hl with rfl | hl
          · exact Or.inl ⟨by omega, hx⟩
          · exact Or.inr ⟨⟨l, hl, hplace⟩, hx⟩
        · rintro (⟨hplace, hx⟩ | ⟨⟨l, hl, hplace⟩, hx⟩)
          · exact ⟨⟨line, List.mem_cons_self, by omega⟩, hx⟩
          · exact ⟨⟨l, List.mem_cons_of_mem _ hl, hplace⟩, hx⟩

/-- The lines of the display are painted where the display is. -/
theorem paints_display (format : PixelFormat) (monitor : Monitor) (crtc : Crtc) (ga : GateArray)
    {memory : Memory} (hram : 0x10000 ≤ memory.ram.size) :
    Paints (Picture.codeAt format monitor crtc ga memory) (Picture.Displayed crtc)
      (paintLines (codes format monitor ga) crtc ga.mode memory crtc.scanlinesPerRow
        (List.range (crtc.verticalDisplayed * crtc.scanlinesPerRow))) := by
  have hlines (line : Nat) (h : line ∈ List.range (crtc.verticalDisplayed * crtc.scanlinesPerRow)) :
      line < crtc.verticalDisplayed * crtc.scanlinesPerRow := List.mem_range.mp h
  refine (paints_paintLines hram (fun _ _ => rfl) List.pairwise_lt_range hlines).congr
    fun x _ y _ => ?_
  unfold Picture.Displayed
  constructor
  · rintro ⟨⟨hle, hlt⟩, hx⟩
    refine ⟨⟨(y - Picture.top crtc).toNat, List.mem_range.mpr ?_, ?_⟩, ?_⟩ <;> omega
  · rintro ⟨⟨line, hl, hy⟩, hx⟩
    have hlt := List.mem_range.mp hl
    omega

-- Painting does not fail.
theorem exists_paint {crtc : Crtc} (hcrtc : crtc.Valid) (ga : GateArray) {memory : Memory}
    (hram : 0x10000 ≤ memory.ram.size) {fb : Framebuffer} (hfb : fb.Sized) :
    ∃ fb', paint crtc ga memory fb = some fb' := by
  obtain ⟨fb₁, hborder, h₁⟩ :=
    paints_paintBorder (codes fb.format fb.monitor ga) (fun _ _ => rfl) fb hfb
  obtain ⟨fb₂, hdisplay, -⟩ := paints_display fb.format fb.monitor crtc ga hram fb₁ h₁.sized
  have hscanlines : scanlines? crtc = some crtc.scanlinesPerRow := by
    have hle := hcrtc.scanlinesPerRow_le
    unfold scanlines?
    rw [if_pos (by omega)]
  refine ⟨fb₂, ?_⟩
  unfold paint
  dsimp only
  rw [hborder, hscanlines]
  exact hdisplay

/-- Nothing that could go wrong does, and the picture is the same whatever the canvas showed. -/
theorem paint_eq {crtc : Crtc} (hcrtc : crtc.Reached) (ga : GateArray) {memory : Memory}
    (hram : 0x10000 ≤ memory.ram.size) {fb : Framebuffer} (hfb : fb.Sized) :
    paint crtc ga memory fb = some (fb.showing crtc ga memory) ∧
      ∀ x < width, ∀ y < height, (fb.showing crtc ga memory).pixelBytes x y =
        fb.format.bytes (Picture.codeAt fb.format fb.monitor crtc ga memory x y) := by
  have hformula (x : Nat) (hx : x < width) (y : Nat) (hy : y < height) :=
    pixelBytes_showing fb crtc ga memory hx hy
  refine ⟨?_, hformula⟩
  obtain ⟨fb₁, hborder, h₁⟩ :=
    paints_paintBorder (codes fb.format fb.monitor ga) (fun _ _ => rfl) fb hfb
  obtain ⟨fb₂, hdisplay, h₂⟩ :=
    paints_display fb.format fb.monitor crtc ga hram fb₁ h₁.sized
  have hscanlines : scanlines? crtc = some crtc.scanlinesPerRow := by
    have hle := hcrtc.valid.scanlinesPerRow_le
    unfold scanlines?
    rw [if_pos (by omega)]
  have hpaint : paint crtc ga memory fb = some fb₂ := by
    unfold paint
    dsimp only
    rw [hborder, hscanlines]
    exact hdisplay
  have hformat : fb₂.format = fb.format := h₂.format.trans h₁.format
  have hmonitor : fb₂.monitor = fb.monitor := h₂.monitor.trans h₁.monitor
  have hpixels (x : Nat) (hx : x < width) (y : Nat) (hy : y < height) :
      fb₂.pixelBytes x y = (fb.showing crtc ga memory).pixelBytes x y := by
    rw [hformula x hx y hy]
    by_cases hdisplayed : Picture.Displayed crtc x y
    · rw [h₂.inside x hx y hy hdisplayed, h₁.format]
    · rw [h₂.outside x hx y hy hdisplayed, h₁.inside x hx y hy trivial, codes_border]
      unfold Picture.codeAt Picture.penAt
      rw [if_neg hdisplayed]
  have hpicture : fb₂ = fb.showing crtc ga memory :=
    eq_of_pixelBytes hformat hmonitor (sized_showing fb crtc ga memory) h₂.sized hpixels
  rw [hpaint, hpicture]

/-- A RAM of zeros. -/
def cleared : Memory where
  ram := ⟨Array.replicate 0x10000 0⟩
  lowerRom := .empty
  upperRoms := .replicate 256 none

/-- A red border around the screen. -/
def redBorder : GateArray := (GateArray.write 0x4C (GateArray.write 0x10 {}).2).2

theorem videoRead_cleared (a : UInt16) : cleared.videoRead a = 0 := by
  have ha : a.toNat < cleared.ram.size :=
    Nat.lt_of_lt_of_eq a.toNat_lt Array.size_replicate.symm
  unfold Memory.videoRead
  rw [dif_pos ha]
  exact Array.getElem_replicate _

/-- The left edge of the firmware's screen. -/
theorem paint_eq_firmware : ∃ fb', paint {} redBorder cleared (.blank .indexed8 .colour) = some fb' ∧
    fb'.pixelBytes 63 36 = [0x0C] ∧ fb'.pixelBytes 64 36 = [0x14] := by
  have hram : 0x10000 ≤ cleared.ram.size := Nat.le_of_eq Array.size_replicate.symm
  obtain ⟨hpaint, hpixels⟩ :=
    paint_eq Crtc.Reached.powerOn redBorder hram (sized_blank .indexed8 .colour)
  refine ⟨_, hpaint, ?_, ?_⟩
  · rw [hpixels 63 (by decide) 36 (by decide)]
    have hborder : ¬ Picture.Displayed {} 63 36 := by decide
    unfold Picture.codeAt Picture.penAt
    rw [if_neg hborder]
    decide
  · rw [hpixels 64 (by decide) 36 (by decide)]
    have hdisplayed : Picture.Displayed {} 64 36 := by decide
    unfold Picture.codeAt Picture.penAt Picture.linePen
    rw [if_pos hdisplayed]
    dsimp only
    rw [videoRead_cleared]
    decide

end

end Painter

-- What the machine shows is what would be painted.
theorem Machine.framebuffer_render (m : Machine) : m.render.framebuffer =
    m.framebuffer.showing m.board.crtc m.board.gateArray m.board.memory := rfl

end AmstradCpc
