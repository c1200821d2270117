import AmstradCpc.Mainboard

/-!
# What the devices leave alone

Of all devices on the ports only the Gate Array and the selection of the upper ROM reach the memory,
and only the Gate Array has a say in its own registers. An input changes neither.
-/

namespace AmstradCpc

/-! ## The Gate Array -/

namespace GateArray

/-- What the written byte asks of the Gate Array. -/
theorem write_cases (v : UInt8) (ga : GateArray) :
    (v >>> 6 = 0 ∧
      ga.write v = (.pen, { ga with pen := if v &&& 0x10 != 0 then border else v &&& 0x0F })) ∨
    (v >>> 6 = 1 ∧
      ga.write v = (.ink, { ga with inks := ga.inks.setIfInBounds ga.pen.toNat (v &&& 0x1F) })) ∨
    (v >>> 6 = 2 ∧ v &&& 0x10 = 0 ∧
      ga.write v = (.romConfig, { ga with romConfig := v &&& 0x0F })) ∨
    (v >>> 6 = 2 ∧ v &&& 0x10 ≠ 0 ∧
      ga.write v =
        (.romConfig, { ga with romConfig := v &&& 0x0F, lineCounter := 0, intRequest := false })) ∨
    (v >>> 6 = 3 ∧ ga.write v = (.ramConfig, { ga with ramConfig := v &&& 0x3F })) := by
  have hlt : (v >>> 6).toNat < 4 := by
    rw [UInt8.toNat_shiftRight]
    show v.toNat >>> 6 < 4
    rw [Nat.shiftRight_eq_div_pow]
    have := v.toNat_lt
    omega
  unfold write
  split
  case h_1 h => exact .inl ⟨h, rfl⟩
  case h_2 h => exact .inr (.inl ⟨h, rfl⟩)
  case h_3 h =>
    by_cases hv : v &&& 0x10 = 0
    · refine .inr (.inr (.inl ⟨h, hv, ?_⟩))
      simp [hv]
    · refine .inr (.inr (.inr (.inl ⟨h, hv, ?_⟩)))
      simp [hv]
  case h_4 h0 h1 h2 =>
    refine .inr (.inr (.inr (.inr ⟨?_, rfl⟩)))
    -- the top bits are none of 0, 1 and 2, and less than 4
    have hne (n : UInt8) (hn : v >>> 6 ≠ n) : (v >>> 6).toNat ≠ n.toNat :=
      fun he => hn (UInt8.toNat_inj.mp he)
    have h0 := hne 0 h0
    have h1 := hne 1 h1
    have h2 := hne 2 h2
    refine UInt8.toNat_inj.mp ?_
    simp only [UInt8.toNat_ofNat] at h0 h1 h2 ⊢
    omega

end GateArray

namespace Mainboard

variable (b : Mainboard)

@[simp] theorem memory_ite {c : Prop} [Decidable c] (b b' : Mainboard) :
    (if c then b else b').memory = if c then b.memory else b'.memory :=
  apply_ite ..

@[simp] theorem gateArray_ite {c : Prop} [Decidable c] (b b' : Mainboard) :
    (if c then b else b').gateArray = if c then b.gateArray else b'.gateArray :=
  apply_ite ..

/-! ## Writing to devices -/

@[simp] theorem memory_writeCrtc (f v : UInt8) : (b.writeCrtc f v).memory = b.memory := by
  simp only [writeCrtc]
  split <;> rfl

@[simp] theorem gateArray_writeCrtc (f v : UInt8) : (b.writeCrtc f v).gateArray = b.gateArray := by
  simp only [writeCrtc]
  split <;> rfl

@[simp] theorem memory_writePrinter (v : UInt8) : (b.writePrinter v).memory = b.memory := rfl

@[simp] theorem gateArray_writePrinter (v : UInt8) : (b.writePrinter v).gateArray = b.gateArray :=
  rfl

@[simp] theorem memory_writePpi (port : PpiPort) (v : UInt8) :
    (b.writePpi port v).memory = b.memory := by
  cases port <;> rfl

@[simp] theorem gateArray_writePpi (port : PpiPort) (v : UInt8) :
    (b.writePpi port v).gateArray = b.gateArray := by
  cases port <;> rfl

@[simp] theorem memory_writeExpansion (port : UInt16) (v : UInt8) :
    (b.writeExpansion port v).memory = b.memory := by
  simp only [writeExpansion, memory_ite, ite_self]

@[simp] theorem gateArray_writeExpansion (port : UInt16) (v : UInt8) :
    (b.writeExpansion port v).gateArray = b.gateArray := by
  simp only [writeExpansion, gateArray_ite, ite_self]

@[simp] theorem gateArray_writeRomSelect (v : UInt8) :
    (b.writeRomSelect v).gateArray = b.gateArray := rfl

@[simp] theorem gateArray_writeGateArray (v : UInt8) :
    (b.writeGateArray v).gateArray = (b.gateArray.write v).2 := by
  simp only [writeGateArray]
  split <;> rfl

/-! ## Reading from devices -/

@[simp] theorem memory_readPpi (port : PpiPort) : (b.readPpi port).2.memory = b.memory := by
  cases port with
  | a => simp [readPpi, drivePortA]
  | b | c | control => rfl

@[simp] theorem gateArray_readPpi (port : PpiPort) :
    (b.readPpi port).2.gateArray = b.gateArray := by
  cases port with
  | a => simp [readPpi, drivePortA]
  | b | c | control => rfl

@[simp] theorem memory_readExpansion (port : UInt16) :
    (b.readExpansion port).2.memory = b.memory := by
  simp only [readExpansion]
  split
  · rfl
  · split
    · rfl
    · split <;> rfl

@[simp] theorem gateArray_readExpansion (port : UInt16) :
    (b.readExpansion port).2.gateArray = b.gateArray := by
  simp only [readExpansion]
  split
  · rfl
  · split
    · rfl
    · split <;> rfl

/-! ## Ports -/

theorem gateArray_output (port : UInt16) (v : UInt8) :
    (b.output port v).gateArray =
      if low port 0x8000 then (b.gateArray.write v).2 else b.gateArray := by
  simp [output]

theorem memory_input (port : UInt16) : (b.input port).2.memory = b.memory := by
  simp only [input]
  by_cases he : low port 0x0400 <;> by_cases hp : low port 0x0800 <;> simp [he, hp]

theorem gateArray_input (port : UInt16) : (b.input port).2.gateArray = b.gateArray := by
  simp only [input]
  by_cases he : low port 0x0400 <;> by_cases hp : low port 0x0800 <;> simp [he, hp]

/-! ## The bus -/

theorem peek_eq (b : Mainboard) (a : UInt16) : Z80.Bus.peek b a = b.memory.read a := rfl

-- Counting a scanline is no matter of the memory.
@[simp] theorem memory_scanline (b : Mainboard) : b.scanline.memory = b.memory := by
  unfold scanline
  dsimp only
  split <;> rfl

end Mainboard

end AmstradCpc
