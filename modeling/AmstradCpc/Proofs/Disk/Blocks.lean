import AmstradCpc.Disk.Image

/-!
# Blocks of a disk image

What reading a written image comes down to in either flavour. The block of a track is read field by
field (`readTrack_trackBlock`), blocks are read one by one at their places (`readTracks_cons`), and the
block about the disk gives back its dimensions (`Disk.ofBytes_diskBlock`).
-/

namespace AmstradCpc

/-- The size code that a track is written with. -/
def Track.sizeCode (t : Track) : UInt8 :=
  match t.sectors with
  | [] => 2
  | s :: _ => s.id.n

namespace DiskImage

/-! ## Sectors -/

theorem length_takePadded (len : Nat) (bs : List UInt8) : (takePadded len bs).length = len := by
  unfold takePadded
  rw [length_padTo, List.length_take]
  omega

theorem takePadded_append (data tail : List UInt8) :
    takePadded data.length (data ++ tail) = data := by
  unfold takePadded padTo
  rw [List.take_left, Nat.sub_self]
  exact List.append_nil data

theorem length_readSectors_le (extended : Bool) (size count : Nat) (descriptors data : List UInt8) :
    (readSectors extended size count descriptors data).length ≤ count := by
  fun_induction readSectors extended size count descriptors data with
  | case1 => simpa using by assumption
  | case2 => exact Nat.zero_le _

/-- A number of two bytes is read back without what lies above them. -/
theorem littleEndian_read (n : Nat) :
    n.toUInt8.toNat + 0x100 * (n / 0x100).toUInt8.toNat = n % 0x10000 := by
  have hlo : n.toUInt8.toNat = n % 256 := UInt8.toNat_ofNat'
  have hhi : (n / 0x100).toUInt8.toNat = n / 256 % 256 := UInt8.toNat_ofNat'
  rw [hlo, hhi]
  omega

/-- The data of a sector is as long as the reader of its flavour takes it for: what two bytes can
say in an extended image, the track's sector size in a standard one. -/
def Described (extended : Bool) (size : Nat) (s : Sector) : Prop :=
  if extended then s.data.length < 0x10000 else s.data.length = size

theorem descriptor_eq {extended : Bool} {size : Nat} {s : Sector} (h : Described extended size s) :
    ∃ lo hi, descriptor extended s = [s.id.c, s.id.h, s.id.r, s.id.n, s.st1, s.st2, lo, hi] ∧
      (if extended then lo.toNat + 0x100 * hi.toNat else size) = s.data.length := by
  cases extended with
  | false => exact ⟨0, 0, rfl, Eq.symm h⟩
  | true => exact ⟨_, _, rfl, (littleEndian_read _).trans (Nat.mod_eq_of_lt h)⟩

-- Both running offsets, that in the descriptors and that in the data, go on by one sector.
theorem readSectors_descriptors {extended : Bool} {size : Nat} {sectors : List Sector}
    (h : ∀ s ∈ sectors, Described extended size s) (pad tail : List UInt8) :
    readSectors extended size sectors.length (sectors.flatMap (descriptor extended) ++ pad)
      (sectors.flatMap (·.data) ++ tail) = sectors := by
  induction sectors with
  | nil => rfl
  | cons s sectors ih =>
    obtain ⟨lo, hi, hdescriptor, hlength⟩ := descriptor_eq (h s List.mem_cons_self)
    rw [List.flatMap_cons, List.flatMap_cons, List.append_assoc, List.append_assoc, hdescriptor]
    show (let len := if extended then lo.toNat + 0x100 * hi.toNat else size
      { s with data := takePadded len (s.data ++ _) } ::
        readSectors extended size sectors.length _ ((s.data ++ _).drop len)) = s :: sectors
    dsimp only
    rw [hlength, takePadded_append, List.drop_left]
    exact congrArg (s :: ·) (ih fun s hmem => h s (List.mem_cons_of_mem _ hmem))

/-! ## Tracks -/

/-- The block about a track, up to the last descriptor. -/
def trackStart (extended : Bool) (cylinder side : Nat) (t : Track) : List UInt8 :=
  padTo 0x10 trackHeader ++
    [cylinder.toUInt8, side.toUInt8, 0, 0, t.sizeCode, t.sectors.length.toUInt8, t.gap3,
      t.filler] ++
    t.sectors.flatMap (descriptor extended)

theorem trackBlock_eq (extended : Bool) (cylinder side : Nat) (t : Track) :
    trackBlock extended cylinder side t =
      padToBlock (padTo blockSize (trackStart extended cylinder side t) ++
        t.sectors.flatMap (·.data)) := rfl

theorem trackHeader_eq :
    trackHeader = [0x54, 0x72, 0x61, 0x63, 0x6B, 0x2D, 0x49, 0x6E, 0x66, 0x6F, 0x0D, 0x0A] := by
  decide

theorem length_descriptors (extended : Bool) (sectors : List Sector) :
    (sectors.flatMap (descriptor extended)).length = 8 * sectors.length := by
  induction sectors with
  | nil => rfl
  | cons s sectors ih =>
    have hs : (descriptor extended s).length = 8 := by cases extended <;> rfl
    rw [List.flatMap_cons, List.length_append, ih, hs, List.length_cons]
    omega

theorem length_trackStart (extended : Bool) (cylinder side : Nat) (t : Track) :
    (trackStart extended cylinder side t).length = 0x18 + 8 * t.sectors.length := by
  have hheader : (padTo 0x10 trackHeader).length = 0x10 := by
    rw [trackHeader_eq]
    rfl
  unfold trackStart
  rw [List.length_append, List.length_append, hheader, length_descriptors]
  rfl

theorem blockSize_le_length (extended : Bool) (cylinder side : Nat) (t : Track) :
    blockSize ≤ (trackBlock extended cylinder side t).length := by
  unfold trackBlock padToBlock
  dsimp only
  rw [length_padTo, List.length_append, length_padTo]
  omega

-- The header of a written track is read field by field; the sectors are those that the reader
-- makes of the descriptors and the data.
theorem readTrack_trackBlock (extended : Bool) (cylinder side : Nat) {t : Track}
    (h : t.sectors.length ≤ Disk.maxSectors) (tail : List UInt8) : ∃ pad rest,
    readTrack extended (trackBlock extended cylinder side t ++ tail) =
      .ok ⟨t.gap3, t.filler, readSectors extended (sectorSize t.sizeCode) t.sectors.length
        (t.sectors.flatMap (descriptor extended) ++ pad) (t.sectors.flatMap (·.data) ++ rest)⟩ := by
  have hcount : t.sectors.length ≤ 29 := h
  let start := trackStart extended cylinder side t
  let pad := List.replicate (blockSize - start.length) (0 : UInt8)
  have hsize : (start ++ pad).length = blockSize := by
    have hlen : start.length = 0x18 + 8 * t.sectors.length := length_trackStart ..
    rw [List.length_append, List.length_replicate]
    unfold blockSize
    omega
  -- the block is 256 bytes about the track and then the data, both with zeros behind
  obtain ⟨rest, hblock⟩ : ∃ rest, trackBlock extended cylinder side t ++ tail =
      (start ++ pad) ++ (t.sectors.flatMap (·.data) ++ rest) := by
    rw [trackBlock_eq]
    unfold padToBlock padTo
    simp only [List.append_assoc]
    exact ⟨_, rfl⟩
  have htake : (trackBlock extended cylinder side t ++ tail).take blockSize = start ++ pad := by
    rw [hblock, ← hsize, List.take_left]
  have hdrop : (trackBlock extended cylinder side t ++ tail).drop blockSize =
      t.sectors.flatMap (·.data) ++ rest := by
    rw [hblock, ← hsize, List.drop_left]
  refine ⟨pad, rest, ?_⟩
  -- the number of sectors fits its byte
  have hlength : min t.sectors.length.toUInt8.toNat Disk.maxSectors = t.sectors.length := by
    have hbyte : t.sectors.length.toUInt8.toNat = t.sectors.length % 256 := UInt8.toNat_ofNat'
    rw [hbyte, Nat.mod_eq_of_lt (by omega), Nat.min_eq_left h]
  unfold readTrack
  dsimp only
  rw [htake, hdrop]
  unfold start trackStart
  rw [trackHeader_eq]
  show Except.ok (Track.mk t.gap3 t.filler (readSectors extended (sectorSize t.sizeCode)
    (min t.sectors.length.toUInt8.toNat Disk.maxSectors) _ _)) = _
  rw [hlength]
  rfl

theorem length_sectors_of_readTrack {extended : Bool} {block : List UInt8} {t : Track}
    (h : readTrack extended block = .ok t) : t.sectors.length ≤ Disk.maxSectors := by
  unfold readTrack at h
  dsimp only at h
  split at h
  · cases h
  · obtain rfl := Except.ok.inj h
    exact Nat.le_trans (length_readSectors_le ..) (Nat.min_le_right ..)

/-! ## Blocks one by one -/

/-- Reads the track at the beginning of `rest`, where its block is said to have `size` bytes. -/
def readPlace (extended : Bool) (size : Nat) (rest : List UInt8) :
    Except DiskError (Option Track) :=
  if size = 0 ∨ (rest.take blockSize).length < blockSize then .ok none
  else (readTrack extended rest).map some

theorem readPlace_some {extended : Bool} {size : Nat} {rest : List UInt8} {t : Track} :
    readPlace extended size rest = .ok (some t) ↔
      size ≠ 0 ∧ blockSize ≤ rest.length ∧ readTrack extended rest = .ok t := by
  unfold readPlace
  rw [List.length_take]
  by_cases hnone : size = 0 ∨ min blockSize rest.length < blockSize
  · rw [if_pos hnone]
    constructor
    · intro h
      cases h
    · rintro ⟨hsize, hrest, -⟩
      omega
  · rw [if_neg hnone]
    obtain ⟨hsize, hrest⟩ := not_or.mp hnone
    cases readTrack extended rest with
    | error e => simp [Except.map]
    | ok t' =>
      have hlong : blockSize ≤ rest.length := by omega
      simp [Except.map, hsize, hlong]

theorem readPlace_none {extended : Bool} {size : Nat} {rest : List UInt8}
    (h : readPlace extended size rest = .ok none) : size = 0 ∨ rest.length < blockSize := by
  unfold readPlace at h
  rw [List.length_take] at h
  split at h
  case isTrue hnone => omega
  case isFalse => cases hread : readTrack extended rest <;> rw [hread] at h <;> cases h

-- Both ways to read the first track end in the others.
theorem readTracks_eq_bind (extended : Bool) (size : Nat) (sizes : List Nat) (rest : List UInt8) :
    readTracks extended (size :: sizes) rest =
      (readPlace extended size rest).bind fun o =>
        (readTracks extended sizes (rest.drop size)).map (o :: ·) := by
  rw [readTracks]
  unfold readPlace
  split
  · rfl
  · cases readTrack extended rest <;> rfl

theorem readTracks_cons {extended : Bool} {size : Nat} {sizes : List Nat} {rest : List UInt8}
    {tracks : List (Option Track)} :
    readTracks extended (size :: sizes) rest = .ok tracks ↔
      ∃ o later, tracks = o :: later ∧ readPlace extended size rest = .ok o ∧
        readTracks extended sizes (rest.drop size) = .ok later := by
  rw [readTracks_eq_bind]
  cases readPlace extended size rest with
  | error e => simp [Except.bind]
  | ok o =>
    cases readTracks extended sizes (rest.drop size) with
    | error e => simp [Except.bind, Except.map]
    | ok later => simp [Except.bind, Except.map, eq_comm]

/-- What blocks of some sizes take up. -/
def totalSize : List Nat → Nat
  | [] => 0
  | size :: sizes => size + totalSize sizes

-- The induction is over the sizes; what has been read so far is skipped by `drop`.
theorem readTracks_ok {extended : Bool} {sizes : List Nat} {rest : List UInt8}
    {tracks : List (Option Track)} (h : readTracks extended sizes rest = .ok tracks) :
    tracks.length = sizes.length ∧
      ∀ (i size : Nat) (o : Option Track), sizes[i]? = some size → tracks[i]? = some o →
        readPlace extended size (rest.drop (totalSize (sizes.take i))) = .ok o := by
  induction sizes generalizing rest tracks with
  | nil =>
    cases h
    exact ⟨rfl, fun i size o hi => by simp at hi⟩
  | cons size sizes ih =>
    obtain ⟨o, later, rfl, hfirst, hlater⟩ := readTracks_cons.mp h
    obtain ⟨hlength, hplaces⟩ := ih hlater
    refine ⟨congrArg (· + 1) hlength, fun i size' o' hsize ho => ?_⟩
    cases i with
    | zero =>
      cases hsize
      cases ho
      exact hfirst
    | succ i =>
      have hplace := hplaces i size' o' hsize ho
      rwa [List.drop_drop] at hplace

theorem exists_readTracks {extended : Bool} {sizes : List Nat} {rest : List UInt8}
    {P : Nat → Option Track → Prop}
    (h : ∀ i size : Nat, sizes[i]? = some size →
      ∃ o, readPlace extended size (rest.drop (totalSize (sizes.take i))) = .ok o ∧ P i o) :
    ∃ tracks, readTracks extended sizes rest = .ok tracks ∧ tracks.length = sizes.length ∧
      ∀ (i : Nat) (o : Option Track), tracks[i]? = some o → P i o := by
  induction sizes generalizing rest P with
  | nil => exact ⟨[], rfl, rfl, fun i o ho => by simp at ho⟩
  | cons size sizes ih =>
    obtain ⟨o, hfirst, ho⟩ := h 0 size rfl
    have hnext (i size' : Nat) (hsize : sizes[i]? = some size') :
        ∃ o, readPlace extended size' ((rest.drop size).drop (totalSize (sizes.take i))) = .ok o ∧
          P (i + 1) o := by
      have hplace := h (i + 1) size' hsize
      rwa [List.take_succ_cons, totalSize, ← List.drop_drop] at hplace
    obtain ⟨later, hlater, hlength, hplaces⟩ := ih hnext
    refine ⟨o :: later, readTracks_cons.mpr ⟨o, later, rfl, hfirst, hlater⟩,
      congrArg (· + 1) hlength, fun i o' ho' => ?_⟩
    cases i with
    | zero =>
      cases ho'
      exact ho
    | succ i => exact hplaces i o' ho'

/-! ## The block about the disk -/

/-- The text at the beginning of an image. -/
def diskStart (extended : Bool) : List UInt8 :=
  padTo 0x30 ((if extended then extendedHeader else standardHeader) ++ creator)

theorem length_diskStart (extended : Bool) : (diskStart extended).length = 0x30 := by
  cases extended <;> rfl

theorem flavour_diskStart (extended : Bool) (rest : List UInt8) :
    flavour? (diskStart extended ++ rest) = some extended := by
  cases extended <;> rfl

theorem length_trackSizes {count : Nat} {header : List UInt8} (hheader : header.length = blockSize)
    (hcount : count ≤ 204) (extended : Bool) : (trackSizes extended count header).length = count := by
  unfold trackSizes
  cases extended with
  | true =>
    rw [if_pos rfl, List.length_map, List.length_take, List.length_drop, hheader]
    exact Nat.min_eq_left hcount
  | false => exact List.length_replicate

section Header

variable (d : Disk) {fields : List UInt8} (h : fields.length ≤ 206)

include h

-- 48 bytes of text, the two counts, the fields of the flavour, and zeros
theorem diskBlock_eq : diskBlock d fields =
    diskStart d.extended ++ ([d.cylinders.toUInt8, d.sides.toUInt8] ++
      (fields ++ List.replicate (206 - fields.length) 0)) := by
  have hstart : padTo 0x30 ((if d.extended then extendedHeader else standardHeader) ++ creator) =
      diskStart d.extended := rfl
  have hlength : (diskStart d.extended ++ [d.cylinders.toUInt8, d.sides.toUInt8] ++ fields).length =
      0x32 + fields.length := by
    rw [List.length_append, List.length_append, length_diskStart]
    rfl
  have hzeros : blockSize - (0x32 + fields.length) = 206 - fields.length := by
    unfold blockSize
    omega
  unfold diskBlock
  dsimp only
  rw [hstart, padTo, hlength, hzeros, List.append_assoc, List.append_assoc]

theorem length_diskBlock : (diskBlock d fields).length = blockSize := by
  rw [diskBlock_eq d h]
  simp only [List.length_append, length_diskStart, List.length_cons, List.length_nil,
    List.length_replicate, blockSize]
  omega

theorem drop_diskBlock :
    (diskBlock d fields).drop 0x30 = [d.cylinders.toUInt8, d.sides.toUInt8] ++
      (fields ++ List.replicate (206 - fields.length) 0) := by
  rw [diskBlock_eq d h, ← length_diskStart d.extended, List.drop_left]

end Header

end DiskImage

namespace Disk

open DiskImage

-- The block about the disk has room for 204 sizes, and a disk has 168 places at most.
theorem places_le {sides : UInt8} (h : sides = 1 ∨ sides = 2) (n : Nat) :
    min n maxCylinders * sides.toNat ≤ 204 := by
  have hmax : min n maxCylinders ≤ 84 := Nat.min_le_right ..
  have hsides : sides.toNat ≤ 2 := by
    rcases h with rfl | rfl <;> decide
  exact Nat.le_trans (Nat.mul_le_mul hmax hsides) (by decide)

/-- What it takes for a file to be a disk image, and the disk that it is one of. -/
theorem ofBytes_eq_ok_iff {file : List UInt8} {d : Disk} :
    ofBytes file = .ok d ↔
      let header := file.take blockSize
      let cylinders := min (header.getD 0x30 0).toNat maxCylinders
      let sides := header.getD 0x31 0
      blockSize ≤ file.length ∧ (sides = 1 ∨ sides = 2) ∧
        ∃ extended tracks, flavour? header = some extended ∧
          readTracks extended (trackSizes extended (cylinders * sides.toNat) header)
            (file.drop blockSize) = .ok tracks ∧
          d = { cylinders, sides := sides.toNat, tracks, extended } := by
  have hshort : (file.take blockSize).length < blockSize ↔ file.length < blockSize := by
    rw [List.length_take]
    omega
  constructor
  · intro h
    unfold ofBytes at h
    dsimp only at h
    split at h
    case isTrue => cases h
    case isFalse hlong =>
      rw [hshort, Nat.not_lt] at hlong
      split at h
      case h_1 => cases h
      case h_2 extended hflavour =>
        split at h
        case isFalse => cases h
        case isTrue hsides =>
          -- the tracks are all that can still fail
          cases htracks : readTracks extended (trackSizes extended _ _) _ with
          | error e =>
            rw [htracks] at h
            cases h
          | ok tracks =>
            rw [htracks] at h
            exact ⟨hlong, hsides, extended, tracks, hflavour, htracks, (Except.ok.inj h).symm⟩
  · rintro ⟨hlong, hsides, extended, tracks, hflavour, htracks, rfl⟩
    unfold ofBytes
    dsimp only
    rw [if_neg (by rw [hshort]; omega), hflavour]
    dsimp only
    rw [if_pos hsides, htracks]
    rfl

-- Size, flavour and sides are checked in this order, and both counts fit their byte.
theorem ofBytes_diskBlock {d : Disk} {fields : List UInt8} (hfields : fields.length ≤ 206)
    (hcylinders : d.cylinders ≤ maxCylinders) (hsides : d.sides = 1 ∨ d.sides = 2)
    (rest : List UInt8) :
    ofBytes (diskBlock d fields ++ rest) =
      (readTracks d.extended (trackSizes d.extended (d.cylinders * d.sides) (diskBlock d fields))
        rest).map fun tracks =>
          { cylinders := d.cylinders, sides := d.sides, tracks, extended := d.extended } := by
  have hlength := length_diskBlock d hfields
  have htake : (diskBlock d fields ++ rest).take blockSize = diskBlock d fields := by
    rw [← hlength, List.take_left]
  have hdrop : (diskBlock d fields ++ rest).drop blockSize = rest := by
    rw [← hlength, List.drop_left]
  have hflavour : flavour? (diskBlock d fields) = some d.extended := by
    rw [diskBlock_eq d hfields, flavour_diskStart]
  have hcyl : (diskBlock d fields).getD 0x30 0 = d.cylinders.toUInt8 := by
    have hplace := congrArg (·[0]?.getD 0) (drop_diskBlock d hfields)
    simpa [List.getElem?_drop] using hplace
  have hside : (diskBlock d fields).getD 0x31 0 = d.sides.toUInt8 := by
    have hplace := congrArg (·[1]?.getD 0) (drop_diskBlock d hfields)
    simpa [List.getElem?_drop] using hplace
  have hread : min d.cylinders.toUInt8.toNat maxCylinders = d.cylinders := by
    have hmax : d.cylinders ≤ 84 := hcylinders
    have hbyte : d.cylinders.toUInt8.toNat = d.cylinders % 256 := UInt8.toNat_ofNat'
    rw [hbyte, Nat.mod_eq_of_lt (by omega), Nat.min_eq_left hcylinders]
  have hvalid : d.sides.toUInt8.toNat = d.sides ∧ (d.sides.toUInt8 = 1 ∨ d.sides.toUInt8 = 2) := by
    rcases hsides with hs | hs <;> rw [hs] <;> decide
  unfold ofBytes
  dsimp only
  rw [htake, hdrop, if_neg (by omega), hflavour]
  dsimp only
  rw [hcyl, hside, if_pos hvalid.2, hread, hvalid.1]
  rfl

end Disk

end AmstradCpc
