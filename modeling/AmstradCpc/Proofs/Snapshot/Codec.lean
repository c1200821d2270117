import AmstradCpc.Snapshot

/-!
# Reading back a written snapshot

The header is a sequence of segments, so a byte is found by the segment that it is in and its place
there (`Snapshot.byteAt_toBytes`). Main statement: what `Snapshot.toBytes` writes, `Snapshot.ofBytes`
reads back (`Snapshot.ofBytes_toBytes`).
-/

namespace AmstradCpc

attribute [ext] SnapshotCpu Snapshot

-- A byte of a sequence of segments.
theorem getElem?_flatten {α : Type} (segments : List (List α)) {k : Nat} {segment : List α}
    (hk : segments[k]? = some segment) {j : Nat} (hj : j < segment.length) :
    segments.flatten[(segments.take k).flatten.length + j]? = segment[j]? := by
  induction segments generalizing k with
  | nil => simp at hk
  | cons first rest ih =>
    cases k with
    | zero =>
      obtain rfl : first = segment := by simpa using hk
      simp [List.getElem?_append_left hj]
    | succ k =>
      rw [List.take_succ_cons, List.flatten_cons, List.flatten_cons, List.length_append,
        Nat.add_assoc, List.getElem?_append_right (Nat.le_add_right ..), Nat.add_sub_cancel_left]
      exact ih (by simpa using hk)

-- A mask of two bits takes nothing from a value that fits in them.
theorem and_three_of_le {x : UInt8} (h : x ≤ 3) : x &&& 3 = x := by
  have hle : x.toNat ≤ 3 := h
  refine UInt8.toNat_inj.mp ?_
  rw [UInt8.toNat_and]
  refine (Nat.and_two_pow_sub_one_eq_mod x.toNat 2).trans ?_
  exact Nat.mod_eq_of_lt (by omega)

namespace Snapshot

/-! ## What reading guarantees -/

theorem im_readCpu (file : ByteArray) : (readCpu file).im ≤ 3 := by
  show byteAt file 0x25 &&& 3 ≤ 3
  rw [UInt8.le_iff_toNat_le, UInt8.toNat_and]
  exact Nat.and_le_right

@[simp] theorem cpu_readLater (file : ByteArray) (s : Snapshot) : (readLater file s).cpu = s.cpu := by
  simp only [readLater]
  split <;> split <;> rfl

@[simp] theorem ram_readLater (file : ByteArray) (s : Snapshot) : (readLater file s).ram = s.ram := by
  simp only [readLater]
  split <;> split <;> rfl

-- A file that is read has a header and the whole dump that it tells of.
theorem ofBytes_ok {file : ByteArray} {s : Snapshot} (h : ofBytes file = .ok s) :
    let ramSize := (wordAt file 0x6B).toNat * 1024
    headerSize + ramSize ≤ file.size ∧
      s = readLater file (readCommon file (byteAt file 0x10) ramSize) := by
  unfold ofBytes at h
  split at h
  case isTrue => cases h
  case isFalse hheader =>
    split at h
    case isTrue => cases h
    case isFalse =>
      dsimp only at h
      split at h
      case isTrue => cases h
      case isFalse =>
        split at h
        case isTrue => cases h
        case isFalse hram =>
          -- all checks have passed
          refine ⟨?_, (Except.ok.inj h).symm⟩
          omega

theorem im_le_of_ofBytes {file : ByteArray} {s : Snapshot} (h : ofBytes file = .ok s) :
    s.cpu.im ≤ 3 := by
  obtain ⟨-, rfl⟩ := ofBytes_ok h
  rw [cpu_readLater]
  exact im_readCpu file

-- The dump is as long as the header says.
theorem size_ram_of_ofBytes {file : ByteArray} {s : Snapshot} (h : ofBytes file = .ok s) :
    s.ram.size = s.ramKb.toNat * 1024 := by
  obtain ⟨hsize, rfl⟩ := ofBytes_ok h
  have hram : (readCommon file (byteAt file 0x10) ((wordAt file 0x6B).toNat * 1024)).ram.size =
      (wordAt file 0x6B).toNat * 1024 := by
    show (file.extract _ _).size = _
    rw [ByteArray.size_extract]
    omega
  unfold ramKb
  rw [ram_readLater, hram, Nat.mul_div_cancel _ (by decide)]
  show _ = (UInt16.ofNat (wordAt file 0x6B).toNat).toNat * 1024
  rw [UInt16.ofNat_toNat]

-- A dump of `k` KB is one whose size the header can hold.
theorem ramKb_of_size {s : Snapshot} {k : Nat} (hk : k ≤ 65535) (hram : s.ram.size = k * 1024) :
    s.ramKb.toNat = k := by
  unfold ramKb
  rw [hram, Nat.mul_div_cancel _ (by decide), UInt16.toNat_ofNat', Nat.mod_eq_of_lt (by omega)]

/-! ## The segments of the header -/

/-- The header, cut at its vectors and at its gaps. -/
def segments (s : Snapshot) : List (List UInt8) :=
  [signature, gap 8, [writtenVersion], cpuBytes s.cpu, [s.pen], s.inks.toList,
    [s.romConfig, s.ramConfig, s.crtcSelected], s.crtcRegs.toList,
    [s.romSelect, s.portA, s.portB, s.portC, s.ppiControl, s.psgSelected], s.psgRegs.toList,
    wordBytes s.ramKb ++ [s.cpcType], gap 46, [bit s.motor], gap 7, [s.crtcType], gap 14,
    [s.lineCounter, bit s.intRequest], gap 75]

theorem flatten_segments (s : Snapshot) : s.segments.flatten = s.header := by
  delta header
  simp only [segments, List.flatten_cons, List.flatten_nil, List.append_assoc, List.append_nil]

/-- Where a segment begins. -/
def offset (s : Snapshot) (k : Nat) : Nat := (s.segments.take k).flatten.length

-- The segments begin at the same places in every header.
theorem offset_eq (s : Snapshot) (k : Nat) :
    s.offset k =
      ([8, 8, 1, 29, 1, 17, 3, 18, 6, 16, 3, 46, 1, 7, 1, 14, 2, 75].take k).foldr (· + ·) 0 := by
  have hlengths : s.segments.map List.length =
      [8, 8, 1, 29, 1, 17, 3, 18, 6, 16, 3, 46, 1, 7, 1, 14, 2, 75] := by
    simp only [segments, List.map_cons, List.map_nil, length_signature, length_cpuBytes, gap,
      wordBytes, List.length_replicate, Vector.length_toList, List.length_append, List.length_cons,
      List.length_nil]
  rw [offset, List.length_flatten, List.map_take, hlengths]
  rfl

/-- Byte `j` of segment `k`, in the written file. -/
theorem byteAt_toBytes (s : Snapshot) (k j : Nat) {i : Nat} {segment : List UInt8} {x : UInt8}
    (hi : s.offset k = i) (hk : s.segments[k]? = some segment) (hx : segment[j]? = some x) :
    byteAt s.toBytes (i + j) = x := by
  subst hi
  obtain ⟨hj, -⟩ := List.getElem?_eq_some_iff.mp hx
  have hget : s.header[s.offset k + j]? = some x := by
    rw [← flatten_segments, ← hx]
    exact getElem?_flatten s.segments hk hj
  -- the dump behind the header does not matter
  unfold byteAt toBytes
  generalize s.header = header at hget ⊢
  obtain ⟨hlt, heq⟩ := List.getElem?_eq_some_iff.mp hget
  have hlt' : s.offset k + j < (⟨header.toArray⟩ : ByteArray).size := hlt
  rw [dif_pos (by rw [ByteArray.size_append]; omega)]
  refine (ByteArray.getElem_append_left hlt').trans ?_
  exact heq

-- A segment that is a vector, in the written file.
theorem bytesAt_toBytes (s : Snapshot) {n : Nat} (k : Nat) {i : Nat} {v : Vector UInt8 n}
    (hi : s.offset k = i) (hk : s.segments[k]? = some v.toList) : bytesAt s.toBytes i n = v := by
  refine Vector.ext fun j hj => ?_
  unfold bytesAt
  rw [Vector.getElem_ofFn]
  exact s.byteAt_toBytes k j hi hk (by simp [hj])

/-! ## Reading back -/

@[simp] theorem bit_and_one (b : Bool) : (bit b &&& 1 != 0) = b := by
  cases b <;> rfl

theorem wordAt_eq {file : ByteArray} {i : Nat} {w : UInt16} (hlo : byteAt file i = loByte w)
    (hhi : byteAt file (i + 1) = hiByte w) : wordAt file i = w := by
  rw [wordAt, hlo, hhi, word_hiByte_loByte]

theorem readCpu_toBytes (s : Snapshot) (him : s.cpu.im &&& 3 = s.cpu.im) :
    readCpu s.toBytes = s.cpu := by
  -- the bytes of the CPU are the fourth segment, in the order of the file
  have hat (j : Nat) {x : UInt8} (hx : (cpuBytes s.cpu)[j]? = some x) :
      byteAt s.toBytes (0x11 + j) = x :=
    s.byteAt_toBytes 3 j (s.offset_eq 3) rfl hx
  have hbit (j : Nat) {b : Bool} (hx : (cpuBytes s.cpu)[j]? = some (bit b)) :
      (byteAt s.toBytes (0x11 + j) &&& 1 != 0) = b := by
    rw [hat j hx, bit_and_one]
  ext : 1 <;> simp only [readCpu]
  case f => exact hat 0 rfl
  case a => exact hat 1 rfl
  case c => exact hat 2 rfl
  case b => exact hat 3 rfl
  case e => exact hat 4 rfl
  case d => exact hat 5 rfl
  case l => exact hat 6 rfl
  case h => exact hat 7 rfl
  case r => exact hat 8 rfl
  case i => exact hat 9 rfl
  case iff1 => exact hbit 10 rfl
  case iff2 => exact hbit 11 rfl
  case ix => exact wordAt_eq (hat 12 rfl) (hat 13 rfl)
  case iy => exact wordAt_eq (hat 14 rfl) (hat 15 rfl)
  case sp => exact wordAt_eq (hat 16 rfl) (hat 17 rfl)
  case pc => exact wordAt_eq (hat 18 rfl) (hat 19 rfl)
  case im =>
    rw [show byteAt s.toBytes 0x25 = _ from hat 20 rfl]
    exact him
  case f' => exact hat 21 rfl
  case a' => exact hat 22 rfl
  case c' => exact hat 23 rfl
  case b' => exact hat 24 rfl
  case e' => exact hat 25 rfl
  case d' => exact hat 26 rfl
  case l' => exact hat 27 rfl
  case h' => exact hat 28 rfl

-- With whole KB, nothing of the dump is dropped.
theorem toBytes_eq (s : Snapshot) (hram : s.ram.size = s.ramKb.toNat * 1024) :
    s.toBytes = ⟨s.header.toArray⟩ ++ s.ram := by
  unfold toBytes
  rw [← hram, ByteArray.extract_zero_size]

theorem size_header (s : Snapshot) : (⟨s.header.toArray⟩ : ByteArray).size = headerSize :=
  s.length_header

-- The fields of version 3, read at their places.
theorem readLater_toBytes (s : Snapshot) (hversion : s.version = 3)
    (him : s.cpu.im &&& 3 = s.cpu.im)
    (hdump : s.toBytes.extract headerSize (headerSize + s.ramKb.toNat * 1024) = s.ram) :
    readLater s.toBytes (readCommon s.toBytes 3 (s.ramKb.toNat * 1024)) = s := by
  -- a file of version 3 has the fields of version 2 as well
  have hlater (s' : Snapshot) (hs' : s'.version = 3) : readLater s.toBytes s' =
      { s' with
        cpcType := byteAt s.toBytes 0x6D
        motor := byteAt s.toBytes 0x9C &&& 1 != 0
        crtcType := byteAt s.toBytes 0xA4
        lineCounter := byteAt s.toBytes 0xB3
        intRequest := byteAt s.toBytes 0xB4 &&& 1 != 0 } := by
    have h2 : 2 ≤ s'.version := hs' ▸ (by decide : (2 : UInt8) ≤ 3)
    have h3 : 3 ≤ s'.version := hs' ▸ (by decide : (3 : UInt8) ≤ 3)
    simp only [readLater, if_pos h2, if_pos h3]
  rw [hlater _ rfl]
  ext : 1 <;> simp only [readCommon]
  case version => exact hversion.symm
  case cpu => exact s.readCpu_toBytes him
  case pen => exact s.byteAt_toBytes 4 0 (s.offset_eq 4) rfl rfl
  case inks => exact s.bytesAt_toBytes 5 (s.offset_eq 5) rfl
  case romConfig => exact s.byteAt_toBytes 6 0 (s.offset_eq 6) rfl rfl
  case ramConfig => exact s.byteAt_toBytes 6 1 (s.offset_eq 6) rfl rfl
  case crtcSelected => exact s.byteAt_toBytes 6 2 (s.offset_eq 6) rfl rfl
  case crtcRegs => exact s.bytesAt_toBytes 7 (s.offset_eq 7) rfl
  case romSelect => exact s.byteAt_toBytes 8 0 (s.offset_eq 8) rfl rfl
  case portA => exact s.byteAt_toBytes 8 1 (s.offset_eq 8) rfl rfl
  case portB => exact s.byteAt_toBytes 8 2 (s.offset_eq 8) rfl rfl
  case portC => exact s.byteAt_toBytes 8 3 (s.offset_eq 8) rfl rfl
  case ppiControl => exact s.byteAt_toBytes 8 4 (s.offset_eq 8) rfl rfl
  case psgSelected => exact s.byteAt_toBytes 8 5 (s.offset_eq 8) rfl rfl
  case psgRegs => exact s.bytesAt_toBytes 9 (s.offset_eq 9) rfl
  case cpcType => exact s.byteAt_toBytes 10 2 (s.offset_eq 10) rfl rfl
  case motor =>
    rw [show byteAt s.toBytes 0x9C = _ from s.byteAt_toBytes 12 0 (s.offset_eq 12) rfl rfl, bit_and_one]
  case crtcType => exact s.byteAt_toBytes 14 0 (s.offset_eq 14) rfl rfl
  case lineCounter => exact s.byteAt_toBytes 16 0 (s.offset_eq 16) rfl rfl
  case intRequest =>
    rw [show byteAt s.toBytes 0xB4 = _ from s.byteAt_toBytes 16 1 (s.offset_eq 16) rfl rfl, bit_and_one]
  case ram => exact hdump

/-- Main statement: a snapshot with a whole number of KB is read back as it was written. -/
theorem ofBytes_toBytes (s : Snapshot) (hversion : s.version = 3)
    (him : s.cpu.im &&& 3 = s.cpu.im) (hram : s.ram.size = s.ramKb.toNat * 1024) :
    ofBytes s.toBytes = .ok s := by
  have hsize : s.toBytes.size = headerSize + s.ramKb.toNat * 1024 := by
    rw [s.toBytes_eq hram, ByteArray.size_append, s.size_header, hram]
  have hdump : s.toBytes.extract headerSize (headerSize + s.ramKb.toNat * 1024) = s.ram := by
    rw [s.toBytes_eq hram]
    exact ByteArray.extract_append_eq_right s.size_header.symm (by rw [s.size_header, hram])
  have hsignature : (bytesAt s.toBytes 0 8).toList = signature := by
    have hbytes : bytesAt s.toBytes 0 8 = ⟨signature.toArray, length_signature⟩ :=
      s.bytesAt_toBytes 0 (s.offset_eq 0) rfl
    rw [hbytes]
    rfl
  have hwritten : byteAt s.toBytes 0x10 = 3 := s.byteAt_toBytes 2 0 (s.offset_eq 2) rfl rfl
  have hkb : wordAt s.toBytes 0x6B = s.ramKb :=
    wordAt_eq (s.byteAt_toBytes 10 0 (s.offset_eq 10) rfl rfl) (s.byteAt_toBytes 10 1 (s.offset_eq 10) rfl rfl)
  -- size, signature, version and dump are checked in this order
  unfold ofBytes
  rw [if_neg (by omega), if_neg (by rw [hsignature]; exact fun h => h rfl), hwritten, hkb, hsize]
  dsimp only
  rw [if_neg (by decide), if_neg (by omega), s.readLater_toBytes hversion him hdump]

end Snapshot

end AmstradCpc
