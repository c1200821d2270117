import AmstradCpc.Proofs.Disk.Resave
import AmstradCpc.Screen.Framebuffer

/-!
# The canvas as pixels

The data of a canvas is its pixels one after the other, `bytesPerPixel` bytes each. This module takes
a pixel's bytes out of the data, says that these determine the data, and has the elementary way of
painting: to overwrite a span of pixels in one row with one code.
-/

namespace AmstradCpc

/-! ## Blocks of one size -/

/-- Block `p` of a list that is cut into blocks of `size`. -/
def block {α : Type} (size : Nat) (l : List α) (p : Nat) : List α := (l.drop (p * size)).take size

theorem block_append_left {α : Type} {size p : Nat} {l : List α} (r : List α)
    (h : (p + 1) * size ≤ l.length) : block size (l ++ r) p = block size l p := by
  have hp : p * size + size ≤ l.length := by rwa [Nat.succ_mul] at h
  have hsize : size ≤ (l.drop (p * size)).length := by rw [List.length_drop]; omega
  unfold block
  rw [List.drop_append_of_le_length (by omega), List.take_append_of_le_length hsize]

theorem block_append_right {α : Type} {size n p : Nat} {l : List α} (r : List α)
    (h : l.length = n * size) : block size (l ++ r) (n + p) = block size r p := by
  unfold block
  rw [Nat.add_mul, ← List.drop_drop, ← h, List.drop_left]

theorem block_take {α : Type} {size n p : Nat} (l : List α) (h : p < n) :
    block size (l.take (n * size)) p = block size l p := by
  have hp : p * size + size ≤ n * size := by
    rw [← Nat.succ_mul]
    exact Nat.mul_le_mul_right size h
  unfold block
  rw [List.drop_take, List.take_take, Nat.min_eq_left (by omega)]

theorem block_drop {α : Type} {size n p : Nat} (l : List α) :
    block size (l.drop (n * size)) p = block size l (n + p) := by
  unfold block
  rw [List.drop_drop, Nat.add_mul]

theorem length_flatMap_of_length {α β : Type} {f : α → List β} {size : Nat} {xs : List α}
    (hf : ∀ x ∈ xs, (f x).length = size) : (xs.flatMap f).length = xs.length * size := by
  rw [List.length_flatMap, List.map_congr_left hf, List.map_const', List.sum_replicate_nat]

theorem block_flatMap {α β : Type} {f : α → List β} {size : Nat} {xs : List α}
    (hf : ∀ x ∈ xs, (f x).length = size) {p : Nat} {x : α} (hp : xs[p]? = some x) :
    block size (xs.flatMap f) p = f x := by
  obtain ⟨tail, htail⟩ := Disk.drop_flatMap hf hp
  have hx : (f x).length = size := hf x (List.mem_of_getElem? hp)
  unfold block
  rw [htail, ← hx, List.take_left]

/-- The blocks of a list determine it. -/
theorem eq_of_block_eq {α : Type} {size n : Nat} {l r : List α} (hl : l.length = n * size)
    (hr : r.length = n * size) (h : ∀ p < n, block size l p = block size r p) : l = r := by
  induction n generalizing l r with
  | zero =>
    rw [Nat.zero_mul] at hl hr
    rw [List.eq_nil_of_length_eq_zero hl, List.eq_nil_of_length_eq_zero hr]
  | succ n ih =>
    have hfirst : l.take size = r.take size := by
      simpa [block] using h 0 (Nat.succ_pos n)
    have hrest : l.drop size = r.drop size := by
      refine ih ?_ ?_ fun p hp => ?_
      · rw [List.length_drop, hl, Nat.succ_mul, Nat.add_sub_cancel]
      · rw [List.length_drop, hr, Nat.succ_mul, Nat.add_sub_cancel]
      · have hnext := h (1 + p) (by omega)
        rwa [← block_drop, ← block_drop, Nat.one_mul] at hnext
    rw [← List.take_append_drop size l, ← List.take_append_drop size r, hfirst, hrest]

/-- A list with the blocks from `p₀` on, as many as `codes` has, overwritten. -/
theorem block_splice {α β : Type} {f : α → List β} {size : Nat} {l : List β} {codes : List α}
    (hf : ∀ c ∈ codes, (f c).length = size) (p₀ : Nat)
    (hl : (p₀ + codes.length) * size ≤ l.length) (p : Nat) :
    block size (l.take (p₀ * size) ++ codes.flatMap f ++ l.drop ((p₀ + codes.length) * size)) p =
      if p < p₀ then block size l p
      else match codes[p - p₀]? with
        | some c => f c
        | none => block size l p := by
  rw [Nat.add_mul] at hl
  have hbefore : (l.take (p₀ * size)).length = p₀ * size :=
    List.length_take_of_le (by omega)
  have hspan : (codes.flatMap f).length = codes.length * size := length_flatMap_of_length hf
  by_cases hp : p < p₀
  · have hin : (p + 1) * size ≤ (l.take (p₀ * size)).length := by
      rw [hbefore]
      exact Nat.mul_le_mul_right size hp
    rw [if_pos hp, List.append_assoc, block_append_left _ hin, block_take l hp]
  · obtain ⟨i, rfl⟩ : ∃ i, p = p₀ + i := ⟨p - p₀, by omega⟩
    rw [if_neg hp, List.append_assoc, block_append_right _ hbefore, Nat.add_sub_cancel_left]
    by_cases hi : i < codes.length
    · have hin : (i + 1) * size ≤ (codes.flatMap f).length := by
        rw [hspan]
        exact Nat.mul_le_mul_right size hi
      rw [List.getElem?_eq_getElem hi, block_append_left _ hin,
        block_flatMap hf (List.getElem?_eq_getElem hi)]
    · obtain ⟨j, rfl⟩ : ∃ j, i = codes.length + j := ⟨i - codes.length, by omega⟩
      rw [List.getElem?_eq_none (by omega), block_append_right _ hspan, block_drop, Nat.add_assoc]

/-! ## Pixels -/

namespace Framebuffer

/-- The data holds as many pixels as the canvas has. -/
def Sized (fb : Framebuffer) : Prop := fb.data.size = height * fb.stride

/-- The bytes of the pixel at column `x` of row `y`. -/
def pixelBytes (fb : Framebuffer) (x y : Nat) : List UInt8 :=
  (fb.data.data.toList.drop (y * fb.stride + x * fb.format.bytesPerPixel)).take
    fb.format.bytesPerPixel

theorem sized_blank (format : PixelFormat) (monitor : Monitor) : (blank format monitor).Sized := by
  show (Array.replicate _ _).size = _
  rw [Array.size_replicate]
  show width * height * format.bytesPerPixel = height * (width * format.bytesPerPixel)
  rw [Nat.mul_comm width, Nat.mul_assoc]

theorem pixelBytes_eq_block (fb : Framebuffer) (x y : Nat) :
    fb.pixelBytes x y = block fb.format.bytesPerPixel fb.data.data.toList (y * width + x) := by
  unfold pixelBytes block stride
  rw [Nat.add_mul, Nat.mul_assoc]

theorem Sized.length {fb : Framebuffer} (h : fb.Sized) :
    fb.data.data.toList.length = height * width * fb.format.bytesPerPixel := by
  rw [Array.length_toList, Nat.mul_assoc]
  exact h

/-- A canvas is known by its format, its monitor and its pixels. -/
theorem eq_of_pixelBytes {fb fb' : Framebuffer} (hformat : fb'.format = fb.format)
    (hmonitor : fb'.monitor = fb.monitor) (h : fb.Sized) (h' : fb'.Sized)
    (hpixels : ∀ x < width, ∀ y < height, fb'.pixelBytes x y = fb.pixelBytes x y) : fb' = fb := by
  have hlength' := h'.length
  rw [hformat] at hlength'
  have hblocks (p : Nat) (hp : p < height * width) :
      block fb.format.bytesPerPixel fb'.data.data.toList p =
        block fb.format.bytesPerPixel fb.data.data.toList p := by
    have hx : p % width < width := Nat.mod_lt p (by decide)
    have hy : p / width < height := Nat.div_lt_of_lt_mul (by rwa [Nat.mul_comm])
    have hpixel := hpixels (p % width) hx (p / width) hy
    rwa [pixelBytes_eq_block, pixelBytes_eq_block, hformat, Nat.mul_comm, Nat.div_add_mod] at hpixel
  have hdata : fb'.data = fb.data :=
    ByteArray.ext (Array.toList_inj.mp (eq_of_block_eq hlength' h.length hblocks))
  cases fb
  cases fb'
  congr

/-! ## Spans -/

/-- Paints `len` pixels of row `y` from column `x` on. There is no canvas if they are not all in
the data. -/
def putSpan? (x y len : Nat) (code : UInt32) (fb : Framebuffer) : Option Framebuffer :=
  let bpp := fb.format.bytesPerPixel
  let start := y * fb.stride + x * bpp
  let bytes := fb.data.data.toList
  if start + len * bpp ≤ fb.data.size then
    some { fb with
      data := ⟨(bytes.take start ++ (List.replicate len code).flatMap fb.format.bytes ++
        bytes.drop (start + len * bpp)).toArray⟩ }
  else none

/-! ## Painting -/

/-- The canvas afterwards shows `code x y` at every pixel of `on`, and the others as before. -/
structure Covers (code : Nat → Nat → UInt32) (on : Nat → Nat → Prop) (fb fb' : Framebuffer) :
    Prop where
  format : fb'.format = fb.format
  monitor : fb'.monitor = fb.monitor
  sized : fb'.Sized
  inside : ∀ x < width, ∀ y < height, on x y →
    fb'.pixelBytes x y = fb.format.bytes (code x y)
  outside : ∀ x < width, ∀ y < height, ¬ on x y → fb'.pixelBytes x y = fb.pixelBytes x y

/-- On every canvas `f` succeeds, and covers `on`. -/
def Paints (code : Nat → Nat → UInt32) (on : Nat → Nat → Prop)
    (f : Framebuffer → Option Framebuffer) : Prop :=
  ∀ fb : Framebuffer, fb.Sized → ∃ fb', f fb = some fb' ∧ fb.Covers code on fb'

section Paints

variable {code : Nat → Nat → UInt32} {on on₁ on₂ : Nat → Nat → Prop}
  {f g : Framebuffer → Option Framebuffer}

/-- Only the canvas counts. -/
theorem Paints.congr (h : Paints code on₁ f)
    (hon : ∀ x < width, ∀ y < height, (on₂ x y ↔ on₁ x y)) : Paints code on₂ f := by
  intro fb hfb
  obtain ⟨fb', hf, hc⟩ := h fb hfb
  refine ⟨fb', hf, { hc with inside := fun x hx y hy h₂ => ?_, outside := fun x hx y hy h₂ => ?_ }⟩
  · exact hc.inside x hx y hy ((hon x hx y hy).mp h₂)
  · exact hc.outside x hx y hy fun h₁ => h₂ ((hon x hx y hy).mpr h₁)

theorem paints_some (code : Nat → Nat → UInt32) : Paints code (fun _ _ => False) some :=
  fun fb hfb => ⟨fb, rfl,
    { format := rfl
      monitor := rfl
      sized := hfb
      inside := fun _ _ _ _ h => h.elim
      outside := fun _ _ _ _ _ => rfl }⟩

theorem Paints.bind (hf : Paints code on₁ f) (hg : Paints code on₂ g) :
    Paints code (fun x y => on₁ x y ∨ on₂ x y) fun fb => (f fb).bind g := by
  intro fb hfb
  obtain ⟨fb₁, hf₁, h₁⟩ := hf fb hfb
  obtain ⟨fb₂, hg₂, h₂⟩ := hg fb₁ h₁.sized
  have hboth : (f fb).bind g = some fb₂ := by
    rw [hf₁]
    exact hg₂
  refine ⟨fb₂, hboth,
    { format := h₂.format.trans h₁.format
      monitor := h₂.monitor.trans h₁.monitor
      sized := h₂.sized
      inside := fun x hx y hy h => ?_
      outside := fun x hx y hy h => ?_ }⟩
  · by_cases hon : on₂ x y
    · rw [h₂.inside x hx y hy hon, h₁.format]
    · have hon₁ : on₁ x y := h.resolve_right hon
      rw [h₂.outside x hx y hy hon, h₁.inside x hx y hy hon₁]
  · rw [not_or] at h
    rw [h₂.outside x hx y hy h.2, h₁.outside x hx y hy h.1]

/-- A loop covers what its rounds cover. -/
theorem paints_foldlM {n : Nat} {round : Framebuffer → Nat → Option Framebuffer}
    {on : Nat → Nat → Nat → Prop} (h : ∀ i < n, Paints code (on i) (round · i)) :
    Paints code (fun x y => ∃ i < n, on i x y) fun fb => (List.range n).foldlM round fb := by
  induction n with
  | zero => exact (paints_some code).congr fun x _ y _ => by simp
  | succ n ih =>
    have hinit := ih fun i hi => h i (Nat.lt_succ_of_lt hi)
    have hlast := h n (Nat.lt_succ_self n)
    have hloop : (fun fb => (List.range (n + 1)).foldlM round fb) =
        fun fb => ((List.range n).foldlM round fb).bind (round · n) := by
      funext fb
      rw [List.range_succ, List.foldlM_append]
      simp
    rw [hloop]
    refine (hinit.bind hlast).congr fun x _ y _ => ⟨?_, ?_⟩
    · rintro ⟨i, hi, hon⟩
      rcases Nat.lt_succ_iff_lt_or_eq.mp hi with hi | rfl
      · exact Or.inl ⟨i, hi, hon⟩
      · exact Or.inr hon
    · rintro (⟨i, hi, hon⟩ | hon)
      · exact ⟨i, Nat.lt_succ_of_lt hi, hon⟩
      · exact ⟨n, Nat.lt_succ_self n, hon⟩

/-- A stretch of a row is painted in pieces of one width, one after another. -/
theorem paints_pieces {n w : Nat} (hw : 0 < w) {x : Int} {y : Nat}
    {round : Framebuffer → Nat → Option Framebuffer}
    (h : ∀ i < n, Paints code (fun x' y' => y' = y ∧ x + i * w ≤ x' ∧ x' < x + i * w + w)
      (round · i)) :
    Paints code (fun x' y' => y' = y ∧ x ≤ x' ∧ x' < x + n * w)
      fun fb => (List.range n).foldlM round fb := by
  refine (paints_foldlM h).congr fun x' _ y' _ => ⟨?_, ?_⟩
  · rintro ⟨rfl, hle, hlt⟩
    obtain ⟨m, hm⟩ : ∃ m : Nat, (x' : Int) = x + m := ⟨(x' - x).toNat, by omega⟩
    have hin : m < n * w := by
      have hcast : ((n * w : Nat) : Int) = n * w := Int.natCast_mul n w
      omega
    have hpiece : ((m / w : Nat) : Int) * w = (m / w * w : Nat) := (Int.natCast_mul _ _).symm
    have hfirst := Nat.div_mul_le_self m w
    have hlast : m < m / w * w + w := Nat.lt_div_mul_add hw
    refine ⟨m / w, (Nat.div_lt_iff_lt_mul hw).mpr hin, rfl, ?_, ?_⟩ <;> omega
  · rintro ⟨i, hi, rfl, hle, hlt⟩
    have hend : (i + 1) * w ≤ n * w := Nat.mul_le_mul_right w hi
    have hpiece : ((i : Nat) : Int) * w = (i * w : Nat) := (Int.natCast_mul _ _).symm
    have hall : ((n : Nat) : Int) * w = (n * w : Nat) := (Int.natCast_mul _ _).symm
    rw [Nat.succ_mul] at hend
    omega

-- The numbers of the pixels of a span are those from its first one on.
theorem mem_span_iff {x y len x' y' : Nat} (hx : x + len ≤ width) (hx' : x' < width) :
    y' = y ∧ x ≤ x' ∧ x' < x + len ↔
      y * width + x ≤ y' * width + x' ∧ y' * width + x' < y * width + x + len := by
  constructor
  · rintro ⟨rfl, hle, hlt⟩
    omega
  · rintro ⟨hle, hlt⟩
    rcases Nat.lt_trichotomy y' y with h | rfl | h
    · have hrow : (y' + 1) * width ≤ y * width := Nat.mul_le_mul_right width h
      rw [Nat.succ_mul] at hrow
      omega
    · omega
    · have hrow : (y + 1) * width ≤ y' * width := Nat.mul_le_mul_right width h
      rw [Nat.succ_mul] at hrow
      omega

/-- A span of the canvas lies in the data. -/
theorem span_in_data {fb : Framebuffer} (h : fb.Sized) {x y len : Nat} (hx : x + len ≤ width)
    (hy : y < height) : (y * width + x + len) * fb.format.bytesPerPixel ≤
      fb.data.data.toList.length := by
  have hrow : (y + 1) * width ≤ height * width := Nat.mul_le_mul_right width hy
  rw [Nat.succ_mul] at hrow
  rw [h.length]
  exact Nat.mul_le_mul_right _ (by omega)

theorem putSpan?_eq {fb : Framebuffer} (h : fb.Sized) {x y len : Nat} (hx : x + len ≤ width)
    (hy : y < height) (c : UInt32) :
    ∃ fb', fb.putSpan? x y len c = some fb' ∧ fb'.format = fb.format ∧ fb'.monitor = fb.monitor ∧
      fb'.Sized ∧ ∀ x' y', fb'.pixelBytes x' y' =
        if y * width + x ≤ y' * width + x' ∧ y' * width + x' < y * width + x + len
        then fb.format.bytes c else fb.pixelBytes x' y' := by
  have hin := span_in_data h hx hy
  have hstart : y * fb.stride + x * fb.format.bytesPerPixel =
      (y * width + x) * fb.format.bytesPerPixel := by
    unfold stride
    rw [Nat.add_mul, Nat.mul_assoc]
  have hbytes (c' : UInt32) (_ : c' ∈ List.replicate len c) :
      (fb.format.bytes c').length = fb.format.bytesPerPixel :=
    PixelFormat.length_bytes fb.format c'
  have hspan : ((List.replicate len c).flatMap fb.format.bytes).length =
      len * fb.format.bytesPerPixel := by
    rw [length_flatMap_of_length hbytes, List.length_replicate]
  have hend : y * fb.stride + x * fb.format.bytesPerPixel + len * fb.format.bytesPerPixel ≤
      fb.data.size := by
    rw [hstart, ← Nat.add_mul]
    exact hin
  refine ⟨_, if_pos hend, rfl, rfl, ?_, fun x' y' => ?_⟩
  · show (List.toArray _).size = height * fb.stride
    rw [List.size_toArray, ← h, List.length_append, List.length_append, hspan,
      List.length_take_of_le (by rw [Array.length_toList]; exact Nat.le_of_add_right_le hend),
      List.length_drop, Array.length_toList]
    exact Nat.add_sub_of_le hend
  · rw [pixelBytes_eq_block, pixelBytes_eq_block]
    generalize y' * width + x' = p
    have hsplice := block_splice hbytes (y * width + x)
      (by rw [List.length_replicate]; exact hin) p
    rw [List.length_replicate, Nat.add_mul _ len, ← hstart] at hsplice
    rw [hsplice]
    by_cases hp : p < y * width + x
    · rw [if_pos hp, if_neg (by omega)]
    · rw [if_neg hp, List.getElem?_replicate]
      by_cases hlen : p - (y * width + x) < len
      · rw [if_pos hlen, if_pos (by omega)]
      · rw [if_neg hlen, if_neg (by omega)]

/-- A span of the canvas can be painted whatever the canvas shows. -/
theorem paints_putSpan? {x y len : Nat} {c : UInt32} (hx : x + len ≤ width) (hy : y < height)
    (hcode : ∀ x', x ≤ x' → x' < x + len → code x' y = c) :
    Paints code (fun x' y' => y' = y ∧ x ≤ x' ∧ x' < x + len) (putSpan? x y len c) := by
  intro fb hfb
  obtain ⟨fb', hput, hformat, hmonitor, hsized, hpixel⟩ := putSpan?_eq hfb hx hy c
  refine ⟨fb', hput, hformat, hmonitor, hsized, fun x' hx' y' _ hon => ?_, fun x' hx' y' _ hon => ?_⟩
  · rw [hpixel, if_pos ((mem_span_iff hx hx').mp hon)]
    obtain ⟨rfl, hle, hlt⟩ := hon
    rw [hcode x' hle hlt]
  · rw [hpixel, if_neg fun hspan => hon ((mem_span_iff hx hx').mpr hspan)]

end Paints

end Framebuffer

end AmstradCpc
