import AmstradCpc.Proofs.Disk.Blocks

/-!
# Reading an image with every look-up checked

`Disk.ofBytes` answers for every file, and so do the look-ups that it is made of: a byte that is not
there reads as zero, and a part that is not there is empty. `Disk.ofBytes?` goes through a file by
index and has no answer when one is out of range. None is, whatever the file (`Disk.ofBytes?_eq`):
the counts in a file are cut down to what its blocks have room for before anything is looked up.
-/

namespace AmstradCpc

/-! ## Parts of a list -/

section Parts

variable {α : Type}

/-- The entries from `start` up to `stop`, if the list has them. -/
def slice? (l : List α) (start stop : Nat) : Option (List α) :=
  if start ≤ stop ∧ stop ≤ l.length then some ((l.take stop).drop start) else none

/-- Replaces an entry, if the list has it. -/
def store? (l : List α) (i : Nat) (a : α) : Option (List α) :=
  if i < l.length then some (l.set i a) else none

/-- Replaces the entries from `start` up to `stop` by as many others, if the list has them. -/
def copy? (l : List α) (start stop : Nat) (part : List α) : Option (List α) :=
  if start ≤ stop ∧ stop ≤ l.length ∧ part.length = stop - start then
    some (l.take start ++ part ++ l.drop stop)
  else none

theorem slice?_eq {l : List α} {start stop : Nat} (hstart : start ≤ stop)
    (hstop : stop ≤ l.length) : slice? l start stop = some ((l.take stop).drop start) :=
  if_pos ⟨hstart, hstop⟩

theorem store?_eq {l : List α} {i : Nat} (h : i < l.length) (a : α) :
    store? l i a = some (l.set i a) :=
  if_pos h

theorem copy?_eq {l : List α} {start stop : Nat} {part : List α} (hstop : stop ≤ l.length)
    (hpart : start + part.length = stop) :
    copy? l start stop part = some (l.take start ++ part ++ l.drop stop) :=
  if_pos ⟨by omega, hstop, by omega⟩

end Parts

namespace DiskImage

/-! ## The first 256 bytes -/

theorem getElem?_eq_getD {bytes : List UInt8} (hbytes : blockSize ≤ bytes.length) {i : Nat}
    (hi : i < blockSize) : bytes[i]? = some ((bytes.take blockSize).getD i 0) := by
  rw [List.getD_eq_getElem?_getD, List.getElem?_take_of_lt hi,
    List.getElem?_eq_getElem (Nat.lt_of_lt_of_le hi hbytes)]
  rfl

theorem isPrefixOf_take {text : List UInt8} (htext : text.length ≤ blockSize)
    (bytes : List UInt8) : text.isPrefixOf (bytes.take blockSize) = text.isPrefixOf bytes := by
  rw [Bool.eq_iff_iff, List.isPrefixOf_iff_prefix, List.isPrefixOf_iff_prefix, List.prefix_take_iff]
  exact and_iff_left htext

theorem flavour?_take (file : List UInt8) : flavour? (file.take blockSize) = flavour? file := by
  unfold flavour?
  rw [isPrefixOf_take (by decide), isPrefixOf_take (by decide)]

/-! ## A track -/

/-- How long the data of a sector is: as its descriptor says, or `size` in a standard image. -/
def dataLength? (extended : Bool) (size : Nat) (info : List UInt8) : Option Nat :=
  if extended then do return (← info[6]?).toNat + 0x100 * (← info[7]?).toNat else some size

/-- Reads sector `s` of a track from its descriptor, and its data from `offset` on. -/
def sectorAt? (extended : Bool) (size : Nat) (block : List UInt8) (s offset : Nat) :
    Option Sector := do
  let info ← slice? block (0x18 + s * 8) (0x20 + s * 8)
  let id : SectorId := { c := ← info[0]?, h := ← info[1]?, r := ← info[2]?, n := ← info[3]? }
  let len ← dataLength? extended size info
  let available := block.drop offset
  let n := min available.length len
  let data ← copy? (List.replicate len 0) 0 n (← slice? available 0 n)
  return { id, st1 := ← info[4]?, st2 := ← info[5]?, data }

/-- Reads sectors from sector `s` on. -/
def sectorsFrom? (extended : Bool) (size : Nat) (block : List UInt8) :
    Nat → Nat → Nat → Option (List Sector)
  | 0, _, _ => some []
  | count + 1, s, offset => do
    let sector ← sectorAt? extended size block s offset
    return sector ::
      (← sectorsFrom? extended size block count (s + 1) (offset + sector.data.length))

def readTrack? (extended : Bool) (block : List UInt8) : Option (Except DiskError Track) :=
  if !trackHeader.isPrefixOf block then some (.error .missingTrackHeader)
  else do
    let n ← block[0x14]?
    let count := min (← block[0x15]?).toNat Disk.maxSectors
    let sectors ← sectorsFrom? extended (sectorSize n) block count 0 0x100
    return .ok { gap3 := ← block[0x16]?, filler := ← block[0x17]?, sectors }

-- What is copied over the zeros is all there is, or as much as fits.
theorem copy?_replicate (len : Nat) (bs : List UInt8) :
    copy? (List.replicate len 0) 0 (min bs.length len) (bs.take (min bs.length len)) =
      some (takePadded len bs) := by
  have hpart : (bs.take (min bs.length len)).length = min bs.length len := by
    rw [List.length_take]
    omega
  have htake : bs.take (min bs.length len) = bs.take len := by
    rw [Nat.min_comm, ← List.take_eq_take_min]
  rw [copy?_eq (by rw [List.length_replicate]; omega) (by omega)]
  unfold takePadded padTo
  rw [List.take_zero, List.nil_append, List.drop_replicate, htake, List.length_take]
  congr 3
  omega

theorem sectorAt?_eq {extended : Bool} {size : Nat} {block : List UInt8} {s : Nat}
    {c h r n st1 st2 lo hi : UInt8}
    (hslice : slice? block (0x18 + s * 8) (0x20 + s * 8) = some [c, h, r, n, st1, st2, lo, hi])
    (offset : Nat) :
    let len := if extended then lo.toNat + 0x100 * hi.toNat else size
    sectorAt? extended size block s offset = some
      { id := { c, h, r, n }, st1, st2, data := takePadded len (block.drop offset) } := by
  intro len
  have hpart := slice?_eq (Nat.zero_le _) (Nat.min_le_left (block.drop offset).length len)
  have hlen : dataLength? extended size [c, h, r, n, st1, st2, lo, hi] = some len :=
    (apply_ite some ..).symm
  unfold sectorAt?
  rw [hslice]
  show (Option.bind (dataLength? extended size [c, h, r, n, st1, st2, lo, hi])
    fun len => Option.bind (slice? (block.drop offset) 0 (min (block.drop offset).length len))
      fun part => Option.bind (copy? (List.replicate len 0) 0 _ part)
        fun data => some (Sector.mk ⟨c, h, r, n⟩ st1 st2 data)) = _
  rw [hlen, Option.bind_some, hpart, Option.bind_some, List.drop_zero, copy?_replicate]
  rfl

section Block

variable {block : List UInt8} (hblock : blockSize ≤ block.length)

include hblock

/-- The block of a track has the descriptor of every sector that it can describe. -/
theorem exists_descriptor {s : Nat} (hs : s < Disk.maxSectors) : ∃ c h r n st1 st2 lo hi,
    slice? block (0x18 + s * 8) (0x20 + s * 8) = some [c, h, r, n, st1, st2, lo, hi] ∧
      (block.take blockSize).drop (0x18 + s * 8) = c :: h :: r :: n :: st1 :: st2 :: lo :: hi ::
        (block.take blockSize).drop (0x18 + (s + 1) * 8) := by
  have hroom : 0x20 + s * 8 ≤ blockSize := by
    unfold Disk.maxSectors at hs
    unfold blockSize
    omega
  have hslice := slice?_eq (by omega : 0x18 + s * 8 ≤ 0x20 + s * 8) (Nat.le_trans hroom hblock)
  generalize hinfo : (block.take (0x20 + s * 8)).drop (0x18 + s * 8) = info at hslice
  have hlength : info.length = 8 := by
    rw [← hinfo, List.length_drop, List.length_take]
    omega
  have hdrop : (block.take blockSize).drop (0x18 + s * 8) =
      info ++ (block.take blockSize).drop (0x18 + (s + 1) * 8) := by
    have hfront : ((block.take blockSize).drop (0x18 + s * 8)).take 8 = info := by
      rw [← hinfo, List.take_drop, List.take_take]
      congr 2
      omega
    have hrest : (block.take blockSize).drop (0x18 + (s + 1) * 8) =
        ((block.take blockSize).drop (0x18 + s * 8)).drop 8 := by
      rw [List.drop_drop]
      congr 1
      omega
    rw [← hfront, hrest, List.take_append_drop]
  match info, hlength with
  | [c, h, r, n, st1, st2, lo, hi], _ => exact ⟨c, h, r, n, st1, st2, lo, hi, hslice, hdrop⟩

-- The induction is over the sectors to come; both offsets go on by one sector.
theorem sectorsFrom?_eq (extended : Bool) (size : Nat) {count s : Nat}
    (hcount : s + count ≤ Disk.maxSectors) (offset : Nat) :
    sectorsFrom? extended size block count s offset =
      some (readSectors extended size count ((block.take blockSize).drop (0x18 + s * 8))
        (block.drop offset)) := by
  induction count generalizing s offset with
  | zero => rfl
  | succ count ih =>
    obtain ⟨c, h, r, n, st1, st2, lo, hi, hslice, hdrop⟩ :=
      exists_descriptor hblock (by omega : s < Disk.maxSectors)
    let len := if extended then lo.toNat + 0x100 * hi.toNat else size
    unfold sectorsFrom?
    rw [sectorAt?_eq hslice]
    show (Option.bind (sectorsFrom? extended size block count (s + 1)
      (offset + (takePadded len (block.drop offset)).length)) _) = _
    rw [ih (by omega), length_takePadded, hdrop, readSectors, List.drop_drop]
    rfl

/-- No look-up in the block of a track is out of range. -/
theorem readTrack?_eq (extended : Bool) :
    readTrack? extended block = some (readTrack extended block) := by
  have htext : trackHeader.isPrefixOf (block.take blockSize) = trackHeader.isPrefixOf block :=
    isPrefixOf_take (by decide) block
  unfold readTrack? readTrack
  dsimp only
  rw [htext, getElem?_eq_getD hblock (by decide), getElem?_eq_getD hblock (by decide),
    getElem?_eq_getD hblock (by decide), getElem?_eq_getD hblock (by decide)]
  split
  · rfl
  · have hcount : 0 + min ((block.take blockSize).getD 0x15 0).toNat Disk.maxSectors ≤
        Disk.maxSectors := by omega
    show Option.bind (sectorsFrom? ..) _ = _
    rw [sectorsFrom?_eq hblock extended _ hcount]
    rfl

end Block

/-! ## The tracks -/

/-- The block size of a track: from the table of an extended image, or that of all tracks. -/
def sizeAt? (extended : Bool) (standard : Nat) (file : List UInt8) (i : Nat) : Option Nat := do
  if extended then return (← file[0x34 + i]?).toNat * blockSize else return standard

-- An entry of the sizes is one of the table, or the size of them all.
theorem sizeAt?_of_getElem? {extended : Bool} {file : List UInt8} {count k size : Nat}
    (h : (trackSizes extended count (file.take blockSize))[k]? = some size) :
    sizeAt? extended (((file.take blockSize).getD 0x32 0).toNat +
      0x100 * ((file.take blockSize).getD 0x33 0).toNat) file k = some size := by
  unfold trackSizes at h
  cases extended with
  | false =>
    rw [if_neg Bool.false_ne_true] at h
    exact congrArg some (List.eq_of_mem_replicate (List.mem_of_getElem? h)).symm
  | true =>
    rw [if_pos rfl, List.getElem?_map, Option.map_eq_some_iff] at h
    obtain ⟨b, hb, rfl⟩ := h
    rw [List.getElem?_take, Option.ite_none_right_eq_some, List.getElem?_drop, List.getElem?_take,
      Option.ite_none_right_eq_some] at hb
    unfold sizeAt?
    rw [hb.2.2]
    rfl

/-- Reads tracks from track `i` on, whose blocks begin at `offset`. An error ends the reading. -/
def tracksFrom? (extended : Bool) (standard : Nat) (file : List UInt8) :
    Nat → Nat → Nat → Option (Except DiskError (List (Option Track)))
  | 0, _, _ => some (.ok [])
  | count + 1, i, offset => do
    let size ← sizeAt? extended standard file i
    if size = 0 ∨ file.length < offset then
      return (← tracksFrom? extended standard file count (i + 1) offset).map (none :: ·)
    else
      let block := file.drop offset
      if block.length < blockSize then
        return (← tracksFrom? extended standard file count (i + 1) (offset + size)).map (none :: ·)
      else
        match ← readTrack? extended block with
        | .error e => return .error e
        | .ok t =>
          return (← tracksFrom? extended standard file count (i + 1) (offset + size)).map
            (some t :: ·)

-- The induction is over the sizes, which are the entries of the table from `i` on.
theorem tracksFrom?_eq {extended : Bool} {standard : Nat} {file : List UInt8} {sizes : List Nat}
    {i : Nat} (hsizes : ∀ k size : Nat, sizes[k]? = some size →
      sizeAt? extended standard file (i + k) = some size) (offset : Nat) :
    tracksFrom? extended standard file sizes.length i offset =
      some (readTracks extended sizes (file.drop offset)) := by
  induction sizes generalizing i offset with
  | nil => rfl
  | cons size sizes ih =>
    have hnext (k size' : Nat) (hk : sizes[k]? = some size') :
        sizeAt? extended standard file (i + 1 + k) = some size' := by
      rw [Nat.add_right_comm]
      exact hsizes (k + 1) size' hk
    have hsize : sizeAt? extended standard file i = some size := hsizes 0 size rfl
    rw [List.length_cons, tracksFrom?, hsize, readTracks_eq_bind, readPlace, List.length_take]
    dsimp only [bind, Option.bind]
    have hlength : (file.drop offset).length = file.length - offset := List.length_drop
    have hhead : 0 < blockSize := by decide
    by_cases hgone : size = 0 ∨ file.length < offset
    · -- nothing lies beyond, so it is all the same whether the offset goes on
      have hrest : (file.drop offset).drop size = file.drop offset := by
        rcases hgone with rfl | hend
        · exact List.drop_zero
        · rw [List.drop_eq_nil_of_le (Nat.le_of_lt hend), List.drop_nil]
      have hnone : size = 0 ∨ min blockSize (file.drop offset).length < blockSize :=
        hgone.imp_right (by omega)
      rw [if_pos hgone, if_pos hnone, ih hnext, hrest]
      rfl
    · by_cases hshort : (file.drop offset).length < blockSize
      · have hnone : size = 0 ∨ min blockSize (file.drop offset).length < blockSize :=
          .inr (by omega)
        rw [if_neg hgone, if_pos hshort, if_pos hnone, ih hnext, List.drop_drop]
        rfl
      · have hsome : ¬(size = 0 ∨ min blockSize (file.drop offset).length < blockSize) := by
          omega
        rw [if_neg hgone, if_neg hshort, if_neg hsome, readTrack?_eq (Nat.not_lt.mp hshort)]
        cases readTrack extended (file.drop offset) with
        | error e => rfl
        | ok t =>
          dsimp only
          rw [ih hnext, List.drop_drop]
          rfl

-- There are 168 tracks at most, and the table has room for 204 sizes.
theorem tracksFrom?_header {file : List UInt8} (hfile : blockSize ≤ file.length) {sides : UInt8}
    (hsides : sides = 1 ∨ sides = 2) (extended : Bool) (n : Nat) :
    tracksFrom? extended (((file.take blockSize).getD 0x32 0).toNat +
        0x100 * ((file.take blockSize).getD 0x33 0).toNat) file
        (min n Disk.maxCylinders * sides.toNat) 0 blockSize =
      some (readTracks extended
        (trackSizes extended (min n Disk.maxCylinders * sides.toNat) (file.take blockSize))
        (file.drop blockSize)) := by
  have hheader : (file.take blockSize).length = blockSize := by
    rw [List.length_take]
    exact Nat.min_eq_left hfile
  have hcount := length_trackSizes hheader (Disk.places_le hsides n) extended
  generalize hsizes : trackSizes extended (min n Disk.maxCylinders * sides.toNat)
    (file.take blockSize) = sizes at hcount ⊢
  rw [← hcount]
  refine tracksFrom?_eq (fun k size hk => ?_) blockSize
  rw [Nat.zero_add]
  rw [← hsizes] at hk
  exact sizeAt?_of_getElem? hk

end DiskImage

namespace Disk

open DiskImage

def ofBytes? (file : List UInt8) : Option (Except DiskError Disk) :=
  if file.length < blockSize then some (.error .tooShort)
  else
    match flavour? file with
    | none => some (.error .unknownSignature)
    | some extended => do
      let cylinders := min (← file[0x30]?).toNat maxCylinders
      let sides ← file[0x31]?
      if sides = 1 ∨ sides = 2 then do
        let standard := (← file[0x32]?).toNat + 0x100 * (← file[0x33]?).toNat
        let tracks ← tracksFrom? extended standard file (cylinders * sides.toNat) 0 blockSize
        return tracks.map fun tracks => { cylinders, sides := sides.toNat, tracks, extended }
      else return .error (.sideCount sides)

/-- No look-up is out of range, whatever the file. -/
theorem ofBytes?_eq (file : List UInt8) : ofBytes? file = some (ofBytes file) := by
  have hheader : (file.take blockSize).length = min blockSize file.length := List.length_take
  unfold ofBytes? ofBytes
  dsimp only
  by_cases hshort : file.length < blockSize
  · rw [if_pos hshort, if_pos (by omega)]
  · have hlong : blockSize ≤ file.length := Nat.not_lt.mp hshort
    have hsize : (file.take blockSize).length = blockSize := by omega
    rw [if_neg hshort, if_neg (by omega), flavour?_take]
    cases flavour? file with
    | none => rfl
    | some extended =>
      dsimp only
      rw [getElem?_eq_getD hlong (by decide : 0x30 < blockSize),
        getElem?_eq_getD hlong (by decide : 0x31 < blockSize),
        getElem?_eq_getD hlong (by decide : 0x32 < blockSize),
        getElem?_eq_getD hlong (by decide : 0x33 < blockSize)]
      dsimp only [bind, Option.bind]
      by_cases hsides :
          (file.take blockSize).getD 0x31 0 = 1 ∨ (file.take blockSize).getD 0x31 0 = 2
      · rw [if_pos hsides, if_pos hsides, tracksFrom?_header hlong hsides]
        dsimp only
        cases readTracks extended _ _ <;> rfl
      · rw [if_neg hsides, if_neg hsides]
        rfl

end Disk

end AmstradCpc
